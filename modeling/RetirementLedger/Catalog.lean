namespace RetirementLedger

structure Catalog (α : Type) where
  entries : List (String × α)
  ascending : entries.Pairwise fun a b => a.1 < b.1

namespace Catalog

variable {α : Type}

def empty : Catalog α := ⟨[], .nil⟩

instance : Inhabited (Catalog α) := ⟨empty⟩

instance : EmptyCollection (Catalog α) := ⟨empty⟩

def find? (c : Catalog α) (name : String) : Option α := c.entries.lookup name

def contains (c : Catalog α) (name : String) : Bool := (c.find? name).isSome

def size (c : Catalog α) : Nat := c.entries.length

def names (c : Catalog α) : List String := c.entries.map (·.1)

def values (c : Catalog α) : List α := c.entries.map (·.2)

def place (name : String) (value : α) : List (String × α) → List (String × α)
  | [] => [(name, value)]
  | entry :: rest =>
    if name < entry.1 then (name, value) :: entry :: rest
    else if name = entry.1 then (name, value) :: rest
    else entry :: place name value rest

theorem mem_place {name : String} {value : α} {entries : List (String × α)} {e : String × α}
    (h : e ∈ place name value entries) : e.1 = name ∨ e ∈ entries := by
  induction entries with
  | nil => simp_all [place]
  | cons entry rest ih => grind [place]

theorem place_ascending (name : String) (value : α) {entries : List (String × α)}
    (h : entries.Pairwise fun a b => a.1 < b.1) :
    (place name value entries).Pairwise fun a b => a.1 < b.1 := by
  induction entries with
  | nil => simp [place]
  | cons entry rest ih =>
    obtain ⟨head, tail⟩ := List.pairwise_cons.1 h
    unfold place
    split
    · next before =>
      refine List.pairwise_cons.2 ⟨fun e mem => ?_, h⟩
      rcases List.mem_cons.1 mem with rfl | mem
      · exact before
      · exact String.lt_trans before (head e mem)
    · next before =>
      split
      · next same => exact List.pairwise_cons.2 ⟨fun e mem => same ▸ head e mem, tail⟩
      · next other =>
        refine List.pairwise_cons.2 ⟨fun e mem => ?_, ih tail⟩
        rcases mem_place mem with same | mem
        · rw [same]
          exact Classical.byContradiction fun after =>
            other (String.le_antisymm (String.not_lt.1 after) (String.not_lt.1 before))
        · exact head e mem

def insert (c : Catalog α) (name : String) (value : α) : Catalog α :=
  ⟨place name value c.entries, place_ascending name value c.ascending⟩

def retain (c : Catalog α) (keep : String → Bool) : Catalog α :=
  ⟨c.entries.filter (keep ·.1), c.ascending.filter _⟩

def erase (c : Catalog α) (name : String) : Catalog α := c.retain (· != name)

def modify (c : Catalog α) (name : String) (f : α → α) : Catalog α :=
  match c.find? name with
  | none => c
  | some value => c.insert name (f value)

def map {β : Type} (f : α → β) (c : Catalog α) : Catalog β :=
  ⟨c.entries.map fun e => (e.1, f e.2), by simpa [List.pairwise_map] using c.ascending⟩

/-- A catalog from entries in any order; of two entries of one name the later one counts. -/
def ofList (entries : List (String × α)) : Catalog α :=
  entries.foldl (fun c e => c.insert e.1 e.2) empty

end Catalog

end RetirementLedger
