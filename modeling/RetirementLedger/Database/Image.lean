import RetirementLedger.Disk.Basic
import RetirementLedger.Json.Reader
import RetirementLedger.Json.Writer

namespace RetirementLedger

namespace Database.Image

def mark : List UInt8 := Text.Utf8.encode "retirement-ledger database\n"

def rowJson (entry : String × Row) : Json :=
  .array [.text entry.1, .text entry.2.reason, .integer entry.2.retiredAtMillis,
    .text entry.2.retiredBy]

def row? : Json → Option (String × Row)
  | .array [id, reason, millis, actor] => do
    return (← id.text?, ⟨← reason.text?, ← millis.integer?, ← actor.text?⟩)
  | _ => none

def octetsJson (octets : List UInt8) : Json := .array (octets.map fun b => .nat b.toNat)

def octets? : Json → Option (List UInt8) := Json.list? fun j => (j.word? 8).map UInt8.ofNat

def tableJson : RetirementTable → Json
  | .standard rows => .array (rows.entries.map rowJson)
  | .foreign columns _ row =>
    .array [.array (columns.map .text), .array ((List.ofFn row).map octetsJson)]

def standardTable? (j : Json) : Option RetirementTable := do
  return .standard (.ofList (← j.list? row?))

def foreignTable? : Json → Option RetirementTable
  | .array [columns, rows] => do
    let columns ← columns.list? Json.text?
    let rows ← rows.list? octets?
    return .foreign columns rows.length rows.get
  | _ => none

def databaseJson (f : DatabaseFile) : Json :=
  let db := f.database
  .ofFields [("versions", .ofOption (fun vs => .array (vs.map .integer)) db.versions),
    ("table", .ofOption tableJson db.table), ("indexed", .bool db.indexed),
    ("writeAhead", .bool f.writeAhead), ("locked", .bool f.locked)]

def database? (j : Json) : Option DatabaseFile := do
  let table (j : Json) := foreignTable? j <|> standardTable? j
  let database : Database :=
    { versions := ← (← j.member? "versions").nullable? (Json.list? Json.integer?)
      table := ← (← j.member? "table").nullable? table
      indexed := ← (← j.member? "indexed").bool? }
  return { database
           writeAhead := ← (← j.member? "writeAhead").bool?
           locked := ← (← j.member? "locked").bool? }

def encode (f : DatabaseFile) : List UInt8 :=
  if f.isUntouched then [] else mark ++ Text.Utf8.encode (databaseJson f).render

def decode? (octets : List UInt8) : Option DatabaseFile := do
  guard (mark.isPrefixOf octets)
  database? (← Json.parse? (← Text.Utf8.toText? (octets.drop mark.length)))

end Database.Image

namespace DiskNode

def ofOctets (octets : List UInt8) : DiskNode :=
  match Database.Image.decode? octets with
  | some file => .database file
  | none => .octets octets

def octets? : DiskNode → Option (List UInt8)
  | .directory => none
  | .octets content => some content
  | .database file => some (Database.Image.encode file)

end DiskNode

end RetirementLedger
