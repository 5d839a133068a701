import Airdrop.Bytes

/-!
# The SHA-2 compression scheme

* `Sha2.State` : eight chaining words.
* `Sha2.Variant` : what distinguishes one member of the family from another: the word width, the round constants, the
  initial state and the four rotation mixes.
* `Sha2.Variant.hash` : the eight words, as bytes, after every block of the padded message. `length_hash` gives its
  width.
-/

namespace Airdrop.Sha2

/-- The eight chaining words. -/
structure State (W : Type) where
  a : W
  b : W
  c : W
  d : W
  e : W
  f : W
  g : W
  h : W

/-- One member of the family; a block is sixteen words. -/
structure Variant (W : Type) where
  /-- Bytes of a word. -/
  width : Nat
  /-- The word that so many bytes write, most significant first. -/
  read : Bytes → W
  /-- The number a word holds. -/
  toNat : W → Nat
  constants : List W
  initial : State W
  schedule0 : W → W
  schedule1 : W → W
  round0 : W → W
  round1 : W → W

variable {W : Type} [Add W] [XorOp W] [AndOp W] [Complement W] [Inhabited W]

def State.add (s t : State W) : State W :=
  ⟨s.a + t.a, s.b + t.b, s.c + t.c, s.d + t.d, s.e + t.e, s.f + t.f, s.g + t.g, s.h + t.h⟩

/-- The words of a state. -/
def State.words (s : State W) : List W := [s.a, s.b, s.c, s.d, s.e, s.f, s.g, s.h]

namespace Variant

/-- The message with a one bit, zeros, and its length in bits, filling whole blocks. -/
def pad (v : Variant W) (message : Bytes) : Bytes :=
  let block := 16 * v.width
  let used := (message.length + 1 + 2 * v.width) % block
  message ++ 0x80 :: List.replicate ((block - used) % block) 0 ++ Bytes.ofNatBE (2 * v.width) (8 * message.length)

def extension (v : Variant W) (window : List W) : W :=
  v.schedule1 (window.getD 14 default) + window.getD 9 default + v.schedule0 (window.getD 1 default) +
    window.getD 0 default

/-- The schedule: a window of sixteen words and `count` words after it. -/
def schedule (v : Variant W) : (count : Nat) → List W → List W
  | 0, window => window
  | count + 1, window => window.getD 0 default :: schedule v count (window.tail ++ [v.extension window])

/-- One round, with the sum of a schedule word and a round constant. -/
def round (v : Variant W) (s : State W) (wk : W) : State W :=
  let choice := (s.e &&& s.f) ^^^ (~~~s.e &&& s.g)
  let majority := (s.a &&& s.b) ^^^ (s.a &&& s.c) ^^^ (s.b &&& s.c)
  let t := s.h + v.round1 s.e + choice + wk
  ⟨t + v.round0 s.a + majority, s.a, s.b, s.c, s.d + t, s.e, s.f, s.g⟩

def compress (v : Variant W) (s : State W) (block : List W) : State W :=
  s.add ((List.zipWith (· + ·) (v.schedule (v.constants.length - 16) block) v.constants).foldl v.round s)

def hash (v : Variant W) (message : Bytes) : Bytes :=
  let padded := v.pad message
  let blocks := Bytes.chunks (16 * v.width) (padded.length / (16 * v.width)) padded
  let final := blocks.foldl (fun s block => v.compress s ((Bytes.chunks v.width 16 block).map v.read)) v.initial
  final.words.flatMap fun w => Bytes.ofNatBE v.width (v.toNat w)

theorem length_hash (v : Variant W) (message : Bytes) : (v.hash message).length = 8 * v.width := by
  simp [hash, State.words]
  omega

end Variant
end Airdrop.Sha2
