import Airdrop.Error
import Airdrop.Url.Host
import Airdrop.Url.Query

/-!
# Links

`Url.query` takes a link apart into scheme, authority, path, query and fragment, checks the authority and gives the
query.
-/

namespace Airdrop.Url

def isSchemeChar (c : Char) : Bool := Query.isLetter c || Text.isAsciiDigit c || "+-.".toList.contains c

/-- A link without control characters and spaces in front and without tabs and line breaks anywhere. -/
def clean (cs : List Char) : List Char :=
  (cs.dropWhile fun c => c.toNat ≤ 0x20).filter fun c => c != '\t' && c != '\r' && c != '\n'

def afterScheme (cs : List Char) : List Char :=
  match Text.cut? ':' cs with
  | some (c :: scheme, rest) => if Query.isLetter c && scheme.all isSchemeChar then rest else cs
  | _ => cs

/-- The authority, which follows two slashes, and what comes after it. -/
def splitAuthority (cs : List Char) : List Char × List Char :=
  match cs with
  | '/' :: '/' :: rest => rest.span fun c => c != '/' && c != '?' && c != '#'
  | _ => ([], cs)

/-- The host between the first opening bracket and the next closing one. -/
def bracketed (authority : List Char) : List Char :=
  match Text.cut? '[' authority with
  | some (_, rest) => Text.before ']' rest
  | none => []

/-- A host of a form yet to be defined: `v`, hexadecimal digits, a dot and at least one character. -/
def isFutureForm (host : List Char) : Bool :=
  match Text.cut? '.' host with
  | some ('v' :: digits, rest) =>
    !digits.isEmpty && digits.all (fun c => (Hex.digit? c).isSome) && !rest.isEmpty
  | _ => false

def checkBracketed (host : List Char) : Except AuthorityFault Unit :=
  if host.head? = some 'v' then if isFutureForm host then .ok () else .error .badFutureForm
  else if isIPv4 host then .error .bracketedIPv4
  else if isIPv6 host then .ok ()
  else .error (.notNumeric (String.ofList host))

/-- Characters whose compatibility form has one of the delimiters `/`, `?`, `#`, `@` and `:`. -/
def delimiterForms : List Nat :=
  [0x2047, 0x2048, 0x2049, 0x2100, 0x2101, 0x2105, 0x2106, 0x2A74, 0xFE13, 0xFE16, 0xFE55, 0xFE56, 0xFE5F, 0xFE6B,
    0xFF03, 0xFF0F, 0xFF1A, 0xFF1F, 0xFF20]

def checkBrackets (authority : List Char) : Except AuthorityFault Unit :=
  match authority.contains '[', authority.contains ']' with
  | true, true => checkBracketed (bracketed authority)
  | false, false => .ok ()
  | _, _ => .error .unbalancedBrackets

def checkAuthority (authority : List Char) : Except AuthorityFault Unit := do
  checkBrackets authority
  if authority.any fun c => delimiterForms.contains c.toNat then .error (.foldsToDelimiter (String.ofList authority))

/-- The query of a link: after the first question mark that does not follow a number sign. -/
def query (cs : List Char) : Except AuthorityFault (List Char) := do
  let (authority, rest) := splitAuthority (afterScheme (clean cs))
  checkAuthority authority
  match Text.cut? '?' (Text.before '#' rest) with
  | some (_, q) => return q
  | none => return []

end Airdrop.Url
