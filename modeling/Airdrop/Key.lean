import Airdrop.Bytes.Base58
import Airdrop.Error

/-!
# Keys

`Key.parse` takes a key of 32 bytes, raw or as Base58 text. Its errors name the field the key was given for.
-/

namespace Airdrop.Key

def size : Nat := 32

def ofBytes (bs : Bytes) (field : String) : Except EncodingFault Bytes :=
  if bs.length = size then .ok bs else .error (.keyLength field bs.length)

def ofText (s : String) (field : String) : Except EncodingFault Bytes :=
  match Base58.ofText? s with
  | some bs => ofBytes bs field
  | none => .error (.notBase58 field)

/-- The key of a value: Base58 text or the bytes themselves. A torn text is no Base58. -/
def parse (v : Value) (field : String) : Except EncodingFault Bytes :=
  match v with
  | .null => .error (.required field)
  | .text s => ofText s field
  | .torn _ => .error (.notBase58 field)
  | .bytes bs => ofBytes bs field
  | _ => .error (.notKeyText field)

end Airdrop.Key
