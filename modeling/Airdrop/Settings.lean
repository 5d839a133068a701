import Airdrop.Claim.Verify
import Airdrop.Settings.EnvFile
import Airdrop.Text.Case

/-!
# Settings

`Settings.load` reads the settings from the environment and a file of variables. Case does not matter in names; the
environment wins over the file. A file, unlike the environment, may not give a value to a name that is no setting's.
-/

namespace Airdrop

structure Settings where
  algorithm : String := "sha256"
  leafTag : String := ""
  nodeTag : String := ""
  program : String := Claim.defaultProgram
  storageDir : String := "./storage"
  secretKeyPath : String := "./keys/ed25519_private.key"
  publicKeyPath : String := "./keys/ed25519_public.key"
  claimHost : String := "https://lwus.github.io/gumdrop/"
  maxRequestBytes : Int := 262144
  logLevel : String := "INFO"
  deriving DecidableEq

namespace Settings

open Check Form

/-- The variables that hold settings. -/
def names : List String :=
  ["GUMDROP_HASH_ALGORITHM", "GUMDROP_LEAF_PREFIX_HEX", "GUMDROP_NODE_PREFIX_HEX", "GUMDROP_PROGRAM_ID",
    "GUMDROP_STORAGE_DIR", "GUMDROP_SIGNING_KEY_PATH", "GUMDROP_SIGNING_PUBKEY_PATH", "GUMDROP_CLAIM_HOST",
    "GUMDROP_MAX_REQUEST_BYTES", "GUMDROP_LOG_LEVEL"]

def form : Form Settings where
  title := "Settings"
  fields source fs :=
    let default : Settings := {}
    only names fs <|
      mk <$> withDefault "GUMDROP_HASH_ALGORITHM" string default.algorithm source fs
        <*> withDefault "GUMDROP_LEAF_PREFIX_HEX" string default.leafTag source fs
        <*> withDefault "GUMDROP_NODE_PREFIX_HEX" string default.nodeTag source fs
        <*> withDefault "GUMDROP_PROGRAM_ID" string default.program source fs
        <*> withDefault "GUMDROP_STORAGE_DIR" string default.storageDir source fs
        <*> withDefault "GUMDROP_SIGNING_KEY_PATH" string default.secretKeyPath source fs
        <*> withDefault "GUMDROP_SIGNING_PUBKEY_PATH" string default.publicKeyPath source fs
        <*> withDefault "GUMDROP_CLAIM_HOST" string default.claimHost source fs
        <*> withDefault "GUMDROP_MAX_REQUEST_BYTES" integer default.maxRequestBytes source fs
        <*> withDefault "GUMDROP_LOG_LEVEL" string default.logLevel source fs

def toValue (s : Settings) : Value :=
  .object [("hash_algorithm", .text s.algorithm), ("leaf_prefix_hex", .text s.leafTag),
    ("node_prefix_hex", .text s.nodeTag), ("program_id", .text s.program), ("storage_dir", .text s.storageDir),
    ("signing_key_path", .text s.secretKeyPath), ("signing_pubkey_path", .text s.publicKeyPath),
    ("claim_host", .text s.claimHost), ("max_request_bytes", .int s.maxRequestBytes), ("log_level", .text s.logLevel)]

/-- Variables under the lower case of their names; of two names that differ in case the later one counts. -/
def lowerNames {α : Type} (vs : List (List Char × α)) : List (List Char × α) :=
  vs.foldl (fun seen (name, value) => EnvFile.put (Text.lower name) value seen) []

def valueOf (vs : List (List Char × List Char)) (entry : String) : Option Value :=
  (vs.lookup (Text.lower entry.toList)).map fun v => .text (String.ofList v)

def known (vs : List (List Char × List Char)) : Fields :=
  names.filterMap fun entry => (valueOf vs entry).map fun v => (entry, v)

def unknown (vs : List (List Char × List Char)) : Fields :=
  vs.filterMap fun (name, value) =>
    if value.isEmpty || names.any (fun entry => Text.lower entry.toList == name) then none
    else some (String.ofList name, .text (String.ofList value))

def load (environment : List (String × String)) (file : Option String) : Except Error Settings :=
  let environment := environment.map fun (name, value) => (name.toList, value.toList)
  let inFile := lowerNames (EnvFile.read environment ((file.getD "").toList))
  let inFile := inFile.filterMap fun (name, value) => value.map fun v => (name, v)
  let environment := known (lowerNames environment)
  let fields := (known inFile).filter fun (name, _) => (Value.lookup name environment).isNone
  (form.read (environment ++ fields ++ unknown inFile)).mapError .refused

def hasher (s : Settings) : Except Error Hasher :=
  Hasher.ofValues (.text s.algorithm) (.text s.leafTag) (.text s.nodeTag)

end Settings
end Airdrop
