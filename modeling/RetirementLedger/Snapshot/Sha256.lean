import RetirementLedger.Text.Numeral

namespace RetirementLedger.Sha256

def roundWords : List UInt32 :=
  [
    0x428a2f98, 0x71374491, 0xb5c0fbcf, 0xe9b5dba5, 0x3956c25b, 0x59f111f1,
    0x923f82a4, 0xab1c5ed5, 0xd807aa98, 0x12835b01, 0x243185be, 0x550c7dc3,
    0x72be5d74, 0x80deb1fe, 0x9bdc06a7, 0xc19bf174, 0xe49b69c1, 0xefbe4786,
    0x0fc19dc6, 0x240ca1cc, 0x2de92c6f, 0x4a7484aa, 0x5cb0a9dc, 0x76f988da,
    0x983e5152, 0xa831c66d, 0xb00327c8, 0xbf597fc7, 0xc6e00bf3, 0xd5a79147,
    0x06ca6351, 0x14292967, 0x27b70a85, 0x2e1b2138, 0x4d2c6dfc, 0x53380d13,
    0x650a7354, 0x766a0abb, 0x81c2c92e, 0x92722c85, 0xa2bfe8a1, 0xa81a664b,
    0xc24b8b70, 0xc76c51a3, 0xd192e819, 0xd6990624, 0xf40e3585, 0x106aa070,
    0x19a4c116, 0x1e376c08, 0x2748774c, 0x34b0bcb5, 0x391c0cb3, 0x4ed8aa4a,
    0x5b9cca4f, 0x682e6ff3, 0x748f82ee, 0x78a5636f, 0x84c87814, 0x8cc70208,
    0x90befffa, 0xa4506ceb, 0xbef9a3f7, 0xc67178f2
  ]

structure State where
  a : UInt32
  b : UInt32
  c : UInt32
  d : UInt32
  e : UInt32
  f : UInt32
  g : UInt32
  h : UInt32
  deriving Repr, DecidableEq

def initial : State :=
  ⟨0x6a09e667, 0xbb67ae85, 0x3c6ef372, 0xa54ff53a,
    0x510e527f, 0x9b05688c, 0x1f83d9ab, 0x5be0cd19⟩

def rotate (x : UInt32) (n : UInt32) : UInt32 := (x >>> n) ||| (x <<< (32 - n))

def wordOf : List UInt8 → UInt32 := fun bytes => bytes.foldl (fun w b => w * 256 + b.toUInt32) 0

def wordBytes (w : UInt32) : List UInt8 :=
  [(w >>> 24).toUInt8, (w >>> 16).toUInt8, (w >>> 8).toUInt8, w.toUInt8]

def pieces {α : Type} (size : Nat) : Nat → List α → List (List α)
  | 0, _ => []
  | fuel + 1, xs =>
    if xs.length < size then [] else xs.take size :: pieces size fuel (xs.drop size)

def padded (message : List UInt8) : List UInt8 :=
  let length := message.length
  let zeros := (119 - length % 64) % 64
  message ++ 0x80 :: List.replicate zeros 0 ++
    (List.range 8).map fun i => UInt8.ofNat (length * 8 / Nat.pow 256 (7 - i))

def schedule (block : List UInt32) : Array UInt32 :=
  (List.range 48).foldl
    (fun w i =>
      let x := w.getD (i + 1) 0
      let y := w.getD (i + 14) 0
      let s := rotate x 7 ^^^ rotate x 18 ^^^ (x >>> 3)
      let t := rotate y 17 ^^^ rotate y 19 ^^^ (y >>> 10)
      w.push (w.getD i 0 + s + w.getD (i + 9) 0 + t))
    block.toArray

def round (s : State) (k w : UInt32) : State :=
  let sum := rotate s.e 6 ^^^ rotate s.e 11 ^^^ rotate s.e 25
  let choice := (s.e &&& s.f) ^^^ ((s.e ^^^ 0xffffffff) &&& s.g)
  let t := s.h + sum + choice + k + w
  let sum' := rotate s.a 2 ^^^ rotate s.a 13 ^^^ rotate s.a 22
  let majority := (s.a &&& s.b) ^^^ (s.a &&& s.c) ^^^ (s.b &&& s.c)
  ⟨t + sum' + majority, s.a, s.b, s.c, s.d + t, s.e, s.f, s.g⟩

def State.add (s t : State) : State :=
  ⟨s.a + t.a, s.b + t.b, s.c + t.c, s.d + t.d, s.e + t.e, s.f + t.f, s.g + t.g, s.h + t.h⟩

def State.words (s : State) : List UInt32 := [s.a, s.b, s.c, s.d, s.e, s.f, s.g, s.h]

def compress (s : State) (block : List UInt8) : State :=
  let words := schedule ((pieces 4 16 block).map wordOf)
  let mixed := (roundWords.zip words.toList).foldl (fun s (k, w) => round s k w) s
  s.add mixed

def digest (message : List UInt8) : List UInt8 :=
  let text := padded message
  let final := (pieces 64 text.length text).foldl compress initial
  final.words.flatMap wordBytes

def hex (message : List UInt8) : String :=
  String.ofList ((digest message).flatMap Text.hexByte)

end RetirementLedger.Sha256
