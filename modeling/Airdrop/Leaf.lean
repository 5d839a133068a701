import Airdrop.Hasher

/-!
# Claim leaves

A `Leaf` is one claim record. It has one byte form of fixed width, in which all integers are little-endian and all keys
are 32 bytes:

    transfer    index 8 | claimant 32 | mint 32        | amount 8
    candy       index 8 | claimant 32 | config 32      | amount 8
    edition     index 8 | claimant 32 | master mint 32 | amount 8 | edition 8
    ingredient  mint 32 | flags 1

Nothing is checked when a leaf is made; `Leaf.encode` refuses a field that is absent, of the wrong type or too wide. An
integer that is too long even to be named in a message is refused with the error about that.
-/

namespace Airdrop

/-- The four variants of claim records. -/
inductive Kind where
  | transfer
  | candy
  | edition
  | ingredient
  deriving DecidableEq

namespace Kind

def name : Kind → String
  | transfer => "transfer"
  | candy => "candy"
  | edition => "edition"
  | ingredient => "ingredient"

def isIndexed : Kind → Bool
  | ingredient => false
  | _ => true

end Kind

/-- A claim record with unchecked fields, or a value that is no claim record at all. -/
inductive Leaf where
  | transfer (index claimant mint amount : Value)
  | candy (index claimant config amount : Value)
  | edition (index claimant masterMint amount serial : Value)
  | ingredient (mint flags : Value)
  | foreign (typeName : String)

namespace Leaf

/-- The bit of the flags by which an ingredient accepts limited editions. -/
def allowLimitedEditions : Nat := 2

def kind : Leaf → Except Error Kind
  | transfer .. => .ok .transfer
  | candy .. => .ok .candy
  | edition .. => .ok .edition
  | ingredient .. => .ok .ingredient
  | foreign typeName => .error (.encoding (.unknownVariant typeName))

def target? : Leaf → Option Value
  | transfer _ _ mint _ => some mint
  | candy _ _ config _ => some config
  | edition _ _ masterMint _ _ => some masterMint
  | ingredient .. | foreign _ => none

def index? : Leaf → Option Value
  | transfer index .. | candy index .. | edition index .. => some index
  | ingredient .. | foreign _ => none

def allowsLimitedEditions : Leaf → Bool
  | ingredient _ flags =>
    match flags.asInt? with
    | some n => n / 2 % 2 == 1
    | none => false
  | _ => false

/-- An unsigned integer of `width` bytes. -/
def encodeNat (v : Value) (width : Nat) (field : String) : Except Error Bytes :=
  match v with
  | .null => .error (.encoding (.required field))
  | .int n =>
    if n < 0 ∨ 256 ^ width ≤ n then .error (Error.raised (.encoding (.doesNotFit field (8 * width) n)))
    else .ok (Bytes.ofNatLE width n.toNat)
  | _ => .error (.encoding (.notInteger field))

/-- A key of 32 bytes. -/
def encodeKey (v : Value) (field : String) : Except Error Bytes :=
  match v with
  | .null => .error (.encoding (.required field))
  | .bytes bs => if bs.length = 32 then .ok bs else .error (.encoding (.notKeyBytes field))
  | _ => .error (.encoding (.notKeyBytes field))

/-- The byte form of a claim record. Fields are checked in the order in which they are written. -/
def encode : Leaf → Except Error Bytes
  | transfer index claimant mint amount => do
    let index ← encodeNat index 8 "index"
    let claimant ← encodeKey claimant "claimant"
    let mint ← encodeKey mint "mint"
    let amount ← encodeNat amount 8 "amount"
    return index ++ claimant ++ mint ++ amount
  | candy index claimant config amount => do
    let index ← encodeNat index 8 "index"
    let claimant ← encodeKey claimant "claimant"
    let config ← encodeKey config "config"
    let amount ← encodeNat amount 8 "amount"
    return index ++ claimant ++ config ++ amount
  | edition index claimant masterMint amount serial => do
    let index ← encodeNat index 8 "index"
    let claimant ← encodeKey claimant "claimant"
    let masterMint ← encodeKey masterMint "master_mint"
    let amount ← encodeNat amount 8 "amount"
    let serial ← encodeNat serial 8 "edition"
    return index ++ claimant ++ masterMint ++ amount ++ serial
  | ingredient mint flags => do
    let mint ← encodeKey mint "mint"
    let flags ← encodeNat flags 1 "flags"
    return mint ++ flags
  | foreign typeName => .error (.encoding (.unknownVariant typeName))

def hash (l : Leaf) (h : Hasher) : Except Error Bytes := l.encode.map h.leaf

end Leaf
end Airdrop
