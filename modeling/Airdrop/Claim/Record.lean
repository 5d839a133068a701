import Airdrop.Address
import Airdrop.Leaf

/-!
# Records of claims

* `Claim.record` : the leaf of a claim of one of the three integrations.
* `Claim.resolve` : the key a claim is made out to: the wallet that the handle writes, or with a PIN the pseudo-address
  of handle and PIN.
-/

namespace Airdrop.Claim

/-- The kinds of distributions to claimants, in the order in which links are searched for them. -/
def integrations : List Kind := [.transfer, .candy, .edition]

def integration? (name : String) : Option Kind := integrations.find? (·.name == name)

/-- The leaf of a claim. Only an edition claim needs an edition; its fields are checked when it is encoded. -/
def record (integration index claimant target amount edition : Value) : Except Error Leaf :=
  let kind := match integration with
    | .text name => integration? name
    | _ => none
  match kind with
  | some .transfer => .ok (.transfer index claimant target amount)
  | some .candy => .ok (.candy index claimant target amount)
  | some .edition =>
    match edition with
    | .null => .error (Error.raised (.encoding (.editionRequired index)))
    | _ => .ok (.edition index claimant target amount edition)
  | _ => .error (Error.raised (.encoding (.unknownIntegration integration)))

/-- The key of a claimant: a wallet if there is no PIN, else a pseudo-address. -/
def resolve (handle pin seed program : Value) : Except Error Bytes :=
  match pin with
  | .null => (Key.parse handle "wallet handle").mapError .encoding
  | _ => Address.pseudo seed handle pin program

/-- The root that a Base58 text writes, of any width. -/
def rootOfText (s : RawText) : Except EncodingFault Bytes :=
  match Base58.ofRaw? s with
  | some bs => .ok bs
  | none => .error .rootNotBase58

end Airdrop.Claim
