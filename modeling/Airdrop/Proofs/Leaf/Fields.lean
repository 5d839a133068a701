import Airdrop.Proofs.Error
import Airdrop.Proofs.Leaf.Layout

/-!
# The fields of claim records

* `Leaf.fields` : the documented layout of each variant, a table of fields with name, offset, shape and value.
* `Field.Fits`, `Field.read` : the value has the field's shape, and the value that stands at the field's offset.
* `Leaf.encode_eq_fields` : a record is encoded field by field (`encode_eq_error_iff` : up to the first misfit).
* `Field.read_of_forall₂` : fields that stand one behind the other are read back from their offsets.
* `Leaf.Unwritable` : the first misfit is a number that is too long for the message about it.
* `Leaf.encode_layout` : which records have a byte form, what is read from it, which records share it, and what the
  others are refused with.
-/

namespace Airdrop

open Outcome
open Bytes (ofNatLE toNatLE toNatLE_ofNatLE)

/-- The error is an encoding error about a field. -/
def Error.Names (e : Error) (field : String) : Prop :=
  e = .encoding (.required field) ∨ e = .encoding (.notInteger field) ∨
    (∃ bits n, e = .encoding (.doesNotFit field bits n)) ∨ e = .encoding (.notKeyBytes field)

theorem Error.Names.exists_fault {e : Error} {field : String} (h : e.Names field) : ∃ fault, e = .encoding fault := by
  obtain rfl | rfl | ⟨_, _, rfl⟩ | rfl := h <;> exact ⟨_, rfl⟩

theorem Error.Names.showsTorn {e : Error} {field : String} (h : e.Names field) : e.showsTorn = false := by
  obtain rfl | rfl | ⟨_, _, rfl⟩ | rfl := h <;> rfl

theorem Error.Names.kind_eq {e : Error} {field : String} (h : e.Names field) : e.kind = "EncodingError" := by
  obtain rfl | rfl | ⟨_, _, rfl⟩ | rfl := h <;> rfl

namespace Leaf

/-- What a field of a record holds: a number of some bytes, or a key. -/
inductive Shape where
  | number (width : Nat)
  | key

/-- A field in the layout of a record. -/
structure Field where
  name : String
  offset : Nat
  shape : Shape
  value : Value

namespace Shape

def width : Shape → Nat
  | number width => width
  | key => 32

/-- The values that have a byte form of this shape. -/
def Holds : Shape → Value → Prop
  | number width, v => ∃ n : Int, v = .int n ∧ 0 ≤ n ∧ n < 2 ^ (8 * width)
  | key, v => ∃ bs, v = .bytes bs ∧ bs.length = 32

def read : Shape → Bytes → Value
  | number _, bs => .int (toNatLE bs)
  | key, bs => .bytes bs

end Shape

namespace Field

variable {f : Field}

def encode (f : Field) : Except Error Bytes :=
  match f.shape with
  | .number width => encodeNat f.value width f.name
  | .key => encodeKey f.value f.name

def Fits (f : Field) : Prop := f.shape.Holds f.value

/-- The field is to hold a number, and its value is an integer that is too long to be written. -/
def IsLong (f : Field) : Prop := ∃ (width : Nat) (n : Int), f.shape = .number width ∧ f.value = .int n ∧
  Radix.isLong n = true

/-- What stands in a byte string where the field belongs. -/
def read (f : Field) (bs : Bytes) : Value := f.shape.read ((bs.drop f.offset).take f.shape.width)

theorem length_of_encode {piece : Bytes} (hf : f.encode = .ok piece) : piece.length = f.shape.width := by
  obtain ⟨name, offset, shape, value⟩ := f
  cases shape with
  | number width =>
    obtain ⟨n, -, -, rfl⟩ := encodeNat_eq_ok_iff.mp hf
    exact Bytes.length_ofNatLE width n
  | key => exact (encodeKey_eq_ok_iff.mp hf).2

theorem read_of_encode {piece : Bytes} (hf : f.encode = .ok piece) : f.shape.read piece = f.value := by
  obtain ⟨name, offset, shape, value⟩ := f
  cases shape with
  | number width =>
    obtain ⟨n, hn, hlt, rfl⟩ := encodeNat_eq_ok_iff.mp hf
    show Value.int (toNatLE (ofNatLE width n) : Nat) = value
    rw [toNatLE_ofNatLE hlt]
    exact hn.symm
  | key => exact (encodeKey_eq_ok_iff.mp hf).1.symm

theorem exists_encode_iff : (∃ piece, f.encode = .ok piece) ↔ f.Fits := by
  obtain ⟨name, offset, shape, value⟩ := f
  cases shape with
  | number width =>
    have hpow : ((256 ^ width : Nat) : Int) = 2 ^ (8 * width) := by
      rw [Int.natCast_pow, Int.pow_mul]
      rfl
    simp only [encode, Fits, Shape.Holds, encodeNat_eq_ok_iff]
    constructor
    · rintro ⟨_, n, rfl, hlt, -⟩
      exact ⟨n, rfl, Int.natCast_nonneg n, hpow ▸ Int.ofNat_lt.mpr hlt⟩
    · rintro ⟨n, rfl, h0, hlt⟩
      obtain ⟨m, rfl⟩ := Int.eq_ofNat_of_zero_le h0
      exact ⟨_, m, rfl, Int.ofNat_lt.mp (hpow ▸ hlt), rfl⟩
  | key =>
    simp only [encode, Fits, Shape.Holds, encodeKey_eq_ok_iff]

theorem refusal_of_encodeNat {v : Value} {width : Nat} {name : String} {e : Error}
    (h : encodeNat v width name = .error e) :
    e.Names name ∧ (∀ n, v = .int n → Radix.isLong n = false) ∨
      e = .value .tooLongToWrite ∧ ∃ n, v = .int n ∧ Radix.isLong n = true := by
  unfold encodeNat at h
  cases v with
  | int n =>
    dsimp only at h
    split at h
    · obtain rfl := Except.error.inj h
      rcases Error.raised_cases (Error.raised_doesNotFit name (8 * width) n) with ⟨hsame, hshort⟩ | ⟨hsame, hlong⟩
      · refine .inl ⟨.inr (.inr (.inl ⟨_, _, hsame⟩)), fun m hm => ?_⟩
        exact Value.int.inj hm ▸ Bool.eq_false_of_not_eq_true hshort
      · exact .inr ⟨hsame, n, rfl, hlong⟩
    · exact nomatch h
  | null =>
    obtain rfl := Except.error.inj h
    exact .inl ⟨.inl rfl, fun n hno => nomatch hno⟩
  | _ =>
    obtain rfl := Except.error.inj h
    exact .inl ⟨.inr (.inl rfl), fun n hno => nomatch hno⟩

theorem names_of_encodeKey {v : Value} {name : String} {e : Error} (h : encodeKey v name = .error e) :
    e.Names name := by
  unfold encodeKey at h
  cases v with
  | bytes bs =>
    dsimp only at h
    split at h
    · exact nomatch h
    · obtain rfl := Except.error.inj h
      exact .inr (.inr (.inr rfl))
  | null =>
    obtain rfl := Except.error.inj h
    exact .inl rfl
  | _ =>
    obtain rfl := Except.error.inj h
    exact .inr (.inr (.inr rfl))

/-- An error is about the field that is encoded, unless the message would have to show an integer that is too long. -/
theorem refusal_of_encode {e : Error} (hf : f.encode = .error e) :
    e.Names f.name ∧ ¬f.IsLong ∨ e = .value .tooLongToWrite ∧ f.IsLong := by
  obtain ⟨name, offset, shape, value⟩ := f
  cases shape with
  | number width =>
    refine (refusal_of_encodeNat hf).imp (And.imp_right fun hshort => ?_) (And.imp_right fun ⟨n, hn, hlong⟩ => ?_)
    · rintro ⟨_, n, -, hn, hlong⟩
      exact Bool.false_ne_true ((hshort n hn).symm.trans hlong)
    · exact ⟨width, n, rfl, hn, hlong⟩
  | key =>
    refine .inl ⟨names_of_encodeKey hf, ?_⟩
    rintro ⟨_, _, hno, -⟩
    exact nomatch hno

/-- Fields that stand one behind the other from an offset on. -/
def Consecutive : Nat → List Field → Prop
  | _, [] => True
  | offset, f :: rest => f.offset = offset ∧ Consecutive (offset + f.shape.width) rest

theorem read_of_forall₂ {fields : List Field} {pieces : List Bytes}
    (hp : List.Forall₂ (fun f piece => f.encode = .ok piece) fields pieces) (front : Bytes)
    (hc : Consecutive front.length fields) : ∀ f ∈ fields, f.read (front ++ pieces.flatten) = f.value := by
  induction hp generalizing front with
  | nil => exact fun f hf => absurd hf List.not_mem_nil
  | @cons g piece fields pieces hg _ ih =>
    obtain ⟨hoffset, hc⟩ := hc
    rw [← length_of_encode hg, ← List.length_append] at hc
    intro f hf
    rcases List.mem_cons.mp hf with rfl | hf
    · rw [read, hoffset, List.drop_left, List.flatten_cons, List.take_left' (length_of_encode hg), read_of_encode hg]
    · rw [List.flatten_cons, ← List.append_assoc]
      exact ih (front ++ piece) hc f hf

end Field

variable {l r : Leaf} {k : Kind} {bs bs' : Bytes}

def fields : Leaf → List Field
  | transfer index claimant mint amount =>
    [⟨"index", 0, .number 8, index⟩, ⟨"claimant", 8, .key, claimant⟩, ⟨"mint", 40, .key, mint⟩,
      ⟨"amount", 72, .number 8, amount⟩]
  | candy index claimant config amount =>
    [⟨"index", 0, .number 8, index⟩, ⟨"claimant", 8, .key, claimant⟩, ⟨"config", 40, .key, config⟩,
      ⟨"amount", 72, .number 8, amount⟩]
  | edition index claimant masterMint amount serial =>
    [⟨"index", 0, .number 8, index⟩, ⟨"claimant", 8, .key, claimant⟩, ⟨"master_mint", 40, .key, masterMint⟩,
      ⟨"amount", 72, .number 8, amount⟩, ⟨"edition", 80, .number 8, serial⟩]
  | ingredient mint flags => [⟨"mint", 0, .key, mint⟩, ⟨"flags", 32, .number 1, flags⟩]
  | foreign _ => []

theorem consecutive_fields (l : Leaf) : Field.Consecutive 0 l.fields := by
  cases l <;> simp [fields, Field.Consecutive, Shape.width]

theorem encode_eq_fields (hk : l.kind = .ok k) : l.encode = List.flatten <$> l.fields.mapM Field.encode := by
  cases l with
  | foreign typeName => exact nomatch hk
  | _ =>
    simp only [encode, fields, Field.encode, List.mapM_cons, List.mapM_nil, map_bind, map_pure, bind_assoc, pure_bind,
      List.flatten_cons, List.flatten_nil, List.append_nil, List.append_assoc]

theorem encode_eq_ok_iff_forall₂ (hk : l.kind = .ok k) : l.encode = .ok bs ↔
    ∃ pieces, List.Forall₂ (fun f piece => Field.encode f = .ok piece) l.fields pieces ∧ pieces.flatten = bs := by
  rw [encode_eq_fields hk]
  exact map_eq_ok.trans (exists_congr fun _ => and_congr_left fun _ => mapM_eq_ok_iff)

theorem encode_eq_error_iff {e : Error} (hk : l.kind = .ok k) : l.encode = .error e ↔
    ∃ before f after, l.fields = before ++ f :: after ∧ (∀ g ∈ before, g.Fits) ∧ f.encode = .error e := by
  rw [encode_eq_fields hk]
  simp only [← Field.exists_encode_iff]
  exact map_eq_error.trans mapM_eq_error_iff

theorem exists_encode_iff (hk : l.kind = .ok k) : (∃ bs, l.encode = .ok bs) ↔ ∀ f ∈ l.fields, f.Fits := by
  simp only [← Field.exists_encode_iff]
  constructor
  · rintro ⟨bs, hbs⟩ f hf
    obtain ⟨pieces, hp, -⟩ := (encode_eq_ok_iff_forall₂ hk).mp hbs
    obtain ⟨piece, -, hpiece⟩ := exists_of_forall₂ hp.flip f hf
    exact ⟨piece, hpiece⟩
  · intro hall
    obtain ⟨pieces, hp⟩ := exists_mapM hall
    exact ⟨_, (encode_eq_ok_iff_forall₂ hk).mpr ⟨pieces, mapM_eq_ok_iff.mp hp, rfl⟩⟩

/-- The first field that does not fit is a number that is too long to be written. -/
def Unwritable (l : Leaf) : Prop :=
  ∃ before f after, l.fields = before ++ f :: after ∧ (∀ g ∈ before, g.Fits) ∧ ¬f.Fits ∧ f.IsLong

/-- A record is refused with an encoding error, unless it is unwritable. -/
theorem refusal_of_encode {e : Error} (he : l.encode = .error e) :
    (∃ fault, e = .encoding fault) ∧ ¬l.Unwritable ∨ e = .value .tooLongToWrite ∧ l.Unwritable := by
  have hclaim {k : Kind} (hk : l.kind = .ok k) :
      (∃ fault, e = .encoding fault) ∧ ¬l.Unwritable ∨ e = .value .tooLongToWrite ∧ l.Unwritable := by
    obtain ⟨before, f, after, hfields, hbefore, hf⟩ := (encode_eq_error_iff hk).mp he
    have hmisfit : ¬f.Fits := fun hno => by
      obtain ⟨piece, hpiece⟩ := Field.exists_encode_iff.mpr hno
      exact nomatch hpiece.symm.trans hf
    rcases Field.refusal_of_encode hf with ⟨hnames, -⟩ | ⟨rfl, hlong⟩
    · refine .inl ⟨hnames.exists_fault, ?_⟩
      rintro ⟨before', g, after', hfields', hbefore', hmisfit', hlong⟩
      -- A long misfit has its own error, and a record has one error only.
      cases hg : g.encode with
      | ok piece => exact hmisfit' (Field.exists_encode_iff.mp ⟨piece, hg⟩)
      | error e' =>
        obtain rfl := Except.error.inj
          (((encode_eq_error_iff hk).mpr ⟨before', g, after', hfields', hbefore', hg⟩).symm.trans he)
        rcases Field.refusal_of_encode hg with ⟨-, hno⟩ | ⟨rfl, -⟩
        · exact hno hlong
        · obtain ⟨fault, hno⟩ := hnames.exists_fault
          exact nomatch hno
    · exact .inr ⟨rfl, before, f, after, hfields, hbefore, hmisfit, hlong⟩
  cases l with
  | transfer | candy | edition | ingredient => exact hclaim rfl
  | foreign typeName =>
    obtain rfl := Except.error.inj he
    refine .inl ⟨⟨_, rfl⟩, ?_⟩
    rintro ⟨before, f, after, hno, -⟩
    exact absurd hno.symm (by simp [fields])

/-- What a record is refused with shows no torn text. -/
theorem showsTorn_of_encode {e : Error} (he : l.encode = .error e) : e.showsTorn = false := by
  have hclaim {k : Kind} (hk : l.kind = .ok k) : e.showsTorn = false := by
    obtain ⟨_, _, _, -, -, hf⟩ := (encode_eq_error_iff hk).mp he
    rcases Field.refusal_of_encode hf with ⟨hnames, -⟩ | ⟨rfl, -⟩
    · exact hnames.showsTorn
    · rfl
  cases l with
  | transfer | candy | edition | ingredient => exact hclaim rfl
  | foreign typeName => exact Except.error.inj he ▸ rfl

theorem not_unwritable_of_encode (he : l.encode = .ok bs) : ¬l.Unwritable := by
  rintro ⟨before, f, after, hfields, -, hmisfit, -⟩
  obtain ⟨k, hk⟩ := kind_of_encode he
  exact hmisfit ((exists_encode_iff hk).mp ⟨bs, he⟩ f (hfields ▸ by simp))

theorem length_of_encode (hk : l.kind = .ok k) (he : l.encode = .ok bs) : bs.length = k.width :=
  (encodes_of_encode he).length_eq hk

theorem read_of_encode (hk : l.kind = .ok k) (he : l.encode = .ok bs) : ∀ f ∈ l.fields, f.read bs = f.value := by
  obtain ⟨pieces, hp, rfl⟩ := (encode_eq_ok_iff_forall₂ hk).mp he
  exact Field.read_of_forall₂ hp [] (consecutive_fields l)

theorem Encodes.of_alike (he : Encodes l bs) (ha : Alike l r) : Encodes r bs := by
  cases ha with
  | refl => exact he
  | transfer_candy =>
    cases he with
    | transfer hi hc ht ha => exact Encodes.candy hi hc ht ha
  | candy_transfer =>
    cases he with
    | candy hi hc ht ha => exact Encodes.transfer hi hc ht ha

theorem encode_eq_iff_alike (he : l.encode = .ok bs) (he' : r.encode = .ok bs') : bs = bs' ↔ Alike l r := by
  constructor
  · rintro rfl
    exact (encodes_of_encode he).alike (encodes_of_encode he')
  · intro ha
    exact Except.ok.inj (((encodes_of_encode he).of_alike ha).encode_eq.symm.trans he')

/-- **Which claim records have a byte form, and what it says.** A record is encoded if each field holds what its shape
asks for; else the first field that does not is refused, with an encoding error that names it, or, if it is a number
whose text is too long for the message, with the error about that, which is no encoding error. The byte form has the
width of the variant, every field is read back from its offset, and two records share a byte form only if they are equal
or a transfer and a candy claim with the same fields. -/
theorem encode_layout (hk : l.kind = .ok k) :
    ((∃ bs, l.encode = .ok bs) ↔ ∀ f ∈ l.fields, f.Fits) ∧
    ((∃ bs, l.encode = .ok bs) ∨ ∃ e before f after, l.encode = .error e ∧ l.fields = before ++ f :: after ∧
      (∀ g ∈ before, g.Fits) ∧ ¬f.Fits ∧
      (e.Names f.name ∧ e.kind = "EncodingError" ∧ ¬f.IsLong ∨
        e = .value .tooLongToWrite ∧ e.kind = "ValueError" ∧ f.IsLong)) ∧
    (∀ bs, l.encode = .ok bs → bs.length = k.width ∧ ∀ f ∈ l.fields, f.read bs = f.value) ∧
    ∀ r bs bs', l.encode = .ok bs → r.encode = .ok bs' → (bs = bs' ↔ Alike l r) := by
  refine ⟨exists_encode_iff hk, ?_, fun bs he => ⟨length_of_encode hk he, read_of_encode hk he⟩,
    fun r bs bs' => encode_eq_iff_alike⟩
  cases he : l.encode with
  | ok bs => exact .inl ⟨bs, rfl⟩
  | error e =>
    obtain ⟨before, f, after, hfields, hbefore, hf⟩ := (encode_eq_error_iff hk).mp he
    refine .inr ⟨e, before, f, after, rfl, hfields, hbefore, fun hfits => ?_, ?_⟩
    · obtain ⟨piece, hpiece⟩ := Field.exists_encode_iff.mpr hfits
      exact nomatch hpiece.symm.trans hf
    · obtain ⟨hnames, hshort⟩ | ⟨rfl, hlong⟩ := Field.refusal_of_encode hf
      · exact .inl ⟨hnames, hnames.kind_eq, hshort⟩
      · exact .inr ⟨rfl, rfl, hlong⟩

/-- A transfer and a candy claim with the same fields, the greatest amount among them. -/
theorem encode_layout_transfer :
    let claimant := List.replicate 32 (1 : UInt8)
    let mint := List.replicate 32 (2 : UInt8)
    let bs := claimBytes 7 claimant mint (2 ^ 64 - 1)
    let l := transfer (.int 7) (.bytes claimant) (.bytes mint) (.int (2 ^ 64 - 1))
    let r := candy (.int 7) (.bytes claimant) (.bytes mint) (.int (2 ^ 64 - 1))
    l.encode = .ok bs ∧ r.encode = .ok bs ∧ Alike l r ∧ bs.length = 80 ∧ ∀ f ∈ l.fields, f.read bs = f.value := by
  intro claimant mint bs l r
  have hl : l.encode = .ok bs := encode_eq_ok_iff.mpr (.transfer (by decide) rfl rfl (by decide))
  have hr : r.encode = .ok bs := encode_eq_ok_iff.mpr (.candy (by decide) rfl rfl (by decide))
  obtain ⟨-, -, hbs, halike⟩ := encode_layout (l := l) (k := .transfer) rfl
  exact ⟨hl, hr, (halike r bs bs hl hr).mp rfl, hbs bs hl⟩

theorem encodeNat_of_isLong {n : Int} {width : Nat} (hn : Radix.isLong n = true) (hw : 8 * width ≤ Radix.maxDigits)
    (field : String) : encodeNat (.int n) width field = .error (.value .tooLongToWrite) := by
  have hwide : 256 ^ width ≤ n.natAbs := by
    by_contra hlt
    rw [show 256 = 2 ^ 8 from rfl, ← Nat.pow_mul] at hlt
    exact Bool.false_ne_true ((Radix.isLong_of_lt (Nat.not_le.mp hlt) hw).symm.trans hn)
  have hout : n < 0 ∨ ((256 ^ width : Nat) : Int) ≤ n := by omega
  show (if n < 0 ∨ ((256 ^ width : Nat) : Int) ≤ n then _ else _) = _
  rw [if_pos hout, Error.raised_doesNotFit, if_pos hn]

/-- A transfer with an amount of 5001 digits is refused with an error that is no encoding error, though its other fields
fit. -/
theorem encode_transfer_of_long_amount :
    (transfer (.int 0) (.bytes (List.replicate 32 1)) (.bytes (List.replicate 32 2)) (.int (10 ^ 5000 : Nat))).encode =
      .error (.value .tooLongToWrite) ∧ (Error.value .tooLongToWrite).kind = "ValueError" := by
  have hlong : Radix.isLong (10 ^ 5000 : Nat) = true := Radix.isLong_ten_pow (k := 5000) (by decide)
  generalize ((10 ^ 5000 : Nat) : Int) = amount at hlong ⊢
  rw [encode, encodeNat_of_isLong hlong (by decide)]
  exact ⟨rfl, rfl⟩

end Leaf
end Airdrop
