import DefiActions.Bytes
import DefiActions.Hash
import DefiActions.Text.Case

/-!
# Signed requests

A request is signed with the keyed hash of its time, method, path and body. The
service receives the time and the signature as headers.
-/

namespace DefiActions.Signing

def upper (s : String) : String := String.ofList (Text.upper s.toList)

def message (method path body timestamp : String) : String :=
  timestamp ++ ":" ++ upper method ++ ":" ++ path ++ ":" ++ body

def sign (secret method path body timestamp : String) : String :=
  Hex.text (Sha256.hmac (Utf8.ofText secret) (Utf8.ofText (message method path body timestamp)))

def headers (secret method path body timestamp : String) : List (String × String) := [
  ("Content-Type", "application/json"),
  ("Accept", "application/json"),
  ("x-timestamp", timestamp),
  ("x-signature", sign secret method path body timestamp)]

/-! ## Secrets -/

/-- Where secrets come from: a fixed list, or variables of the environment under a common beginning
of their names. -/
inductive SecretSource
  | fixed (secrets : List (String × String))
  | environment (entries : List (String × String)) (beginning : String)

namespace SecretSource

/-- An empty variable counts as no secret. -/
def secret? : SecretSource → String → Option String
  | fixed secrets, id => secrets.lookup id
  | environment entries beginning, id => (entries.lookup (beginning ++ id)).filter (!·.isEmpty)

end SecretSource

end DefiActions.Signing
