import Airdrop.Claim.Payload
import Airdrop.Url

/-!
# Claim links

A claim link carries a payload in its query. The name of the target's parameter tells the kind of the distribution.

* `Link.render` : the link of a payload at a host.
* `Link.parse` : the payload of a link; of several parameters with one name the first counts.
-/

namespace Airdrop.Link

/-- The parameter that holds the target, by kind of distribution. -/
def targetParameters : List (Kind × String) := [(.transfer, "mint"), (.candy, "config"), (.edition, "master")]

def targetParameter? (integration : String) : Option String :=
  (targetParameters.find? fun (kind, _) => kind.name == integration).map (·.2)

def noPin : String := "NA"

def number (n : Int) : Except Error RawText :=
  match Radix.integerText? n with
  | some s => .ok s
  | none => .error (.value .tooLongToWrite)

def optionalNumber (name : String) : Option Int → Except Error (List (String × RawText))
  | some n => (number n).map fun s => [(name, s)]
  | none => .ok []

def pinText : Option Int → Except Error RawText
  | some n => number n
  | none => .ok noPin

def proofText (proof : List RawText) : RawText := .ofCodes (Text.join [.char ','] (proof.map RawText.codes))

/-- The distributor as a parameter, unless it is absent or empty. -/
def distributorParameter : Option RawText → List (String × RawText)
  | some d => if d.isEmpty then [] else [("distributor", d)]
  | none => []

/-- The parameters of a payload. Absent editions and distributors are left out, empty distributors too. -/
def parameters (target : String) (p : Payload) : Except Error (List (String × RawText)) := do
  let edition ← optionalNumber "edition" p.edition
  let amount ← number p.amount
  let index ← number p.index
  let pin ← pinText p.pin
  return distributorParameter p.distributor ++ [(target, p.target)] ++ edition ++
    [("handle", p.handle), ("amount", amount), ("index", index), ("pin", pin), ("proof", proofText p.proof)]

def encodable : String × RawText → Except Error (List Char × List Char)
  | (name, .whole s) => .ok (name.toList, s.toList)
  | (_, .torn t) => .error (.unencodable t)

def render (host : String) (p : Payload) : Except Error String :=
  match targetParameter? p.integration with
  | none => .error (.plain .noKey)
  | some target => do
    let query ← (← parameters target p).mapM encodable
    return String.ofList (Text.trimRight (· == '/') host.toList ++ "/claim?".toList ++ Query.render query)

def required (name : String) (ps : List (String × String)) : Except LinkFault String :=
  match ps.lookup name with
  | some value => .ok value
  | none => .error (.missing name)

def integer (text : String) : Except LinkFault Int :=
  match Numeral.read text.toList with
  | .ok n => .ok n
  | .error .malformed => .error (.badInteger text)
  | .error (.tooLong digits) => .error (.tooLong digits)

def optionalInteger (text? : Option String) : Except LinkFault (Option Int) :=
  match text? with
  | some text => some <$> integer text
  | none => .ok none

/-- The fields of the payload that parameters hold, read in the order in which faults are told. -/
def fields (kind : Kind) (target : String) (ps : List (String × String)) : Except LinkFault Fields := do
  let handle ← required "handle" ps
  let amount ← integer (← required "amount" ps)
  let index ← integer (← required "index" ps)
  let pin ← optionalInteger ((ps.lookup "pin").filter (· != noPin))
  let proof := (Text.split ',' ((ps.lookup "proof").getD "").toList).filter fun piece => !piece.isEmpty
  let edition ← optionalInteger (ps.lookup "edition")
  return [("integration", .text kind.name), ("handle", .text handle), ("amount", .int amount), ("index", .int index),
    ("pin", Value.ofOption .int pin), ("proof", .list (proof.map fun piece => .text (String.ofList piece))),
    ("target", .text target), ("edition", Value.ofOption .int edition),
    ("distributor", Value.ofOption .text (ps.lookup "distributor"))]

def payload (ps : List (String × String)) : Except EncodingFault Payload :=
  match targetParameters.find? fun (_, name) => (ps.lookup name).isSome with
  | none => .error .noTarget
  | some (kind, name) =>
    let read : Except LinkFault Payload := do
      let fs ← fields kind ((ps.lookup name).getD "") ps
      (Payload.form.read fs).mapError .refused
    read.mapError .badLink

def parse (link : String) : Except Error Payload := do
  let query ← (Url.query link.toList).mapError fun fault => .value (.badAuthority fault)
  (payload ((Query.pairs query).map fun (name, value) => (String.ofList name, String.ofList value))).mapError .encoding

/-- The payload of a link given as a value. A byte string names no target, whatever it holds. -/
def parseValue : Value → Except Error Payload
  | .text link => parse link
  | .list _ | .object _ => .error (.plain .typeMismatch)
  | .bytes bs => do
    if bs.any fun b => 128 ≤ b.toNat then .error (.plain .undecodable)
    let _ ← (Url.query (bs.map fun b => Char.ofNat b.toNat)).mapError fun fault => .value (.badAuthority fault)
    .error (.encoding .noTarget)
  | v => if v.truthy then .error (.plain .noAttribute) else .error (.encoding .noTarget)

end Airdrop.Link
