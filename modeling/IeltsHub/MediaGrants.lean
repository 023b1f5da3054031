import IeltsHub.ClickCallbacks
import IeltsHub.JsonText
import IeltsHub.PagingCursor
import IeltsHub.PlatformRefusals

set_option autoImplicit false

/-!
# Media grants

The tokens and the object signatures of `platform/grants.py`, issued and verified. The MAC is a
parameter: a function of the message into thirty-two bytes.
-/
namespace IeltsHub.MediaGrants
open PyText PyTime PyValue PyJson JsonText PagingCursor PlatformErrors PlatformRefusals
open ClickCallbacks (isAscii compareDigest)

/-- `hmac.new(_key(), ·, hashlib.sha256).digest()`. -/
structure Hmac where
  digest : List UInt8 → List UInt8
  length : ∀ message, (digest message).length = 32

def VERSION : String := "v1"

/-! ## Seconds and dates -/

def isDate (t : Time) : Bool := -62135596800000000 ≤ t ∧ t ≤ 253402300799999999

/-- `int((now + timedelta(seconds=ttl)).timestamp())`. -/
def expiry (now : Time) (ttlSeconds : ℤ) : Option ℤ :=
  let moment := now + seconds ttlSeconds
  if isDate now ∧ isDate moment then some (truncate (totalSeconds moment)) else none

/-- `datetime.fromtimestamp(e, UTC)`. -/
def fromTimestamp (e : ℤ) : Except Raised Time :=
  if isDate (seconds e) then .ok (seconds e) else .error .valueError

/-! ## Tokens -/

/-- A call of `issue`. -/
structure Issue where
  userXid : String
  mediaXid : String
  purpose : String := "exam"
  attemptXid : Option String := none
  ttlSeconds : ℤ := 120
  now : Time

def Issue.expires (c : Issue) : Option ℤ := expiry c.now c.ttlSeconds

def Issue.attempt (c : Issue) : List (String × Json) :=
  match c.attemptXid with
  | none => []
  | some xid => if xid = "" then [] else [("a", .str xid)]

def Issue.payload (c : Issue) (e : ℤ) : Json :=
  .obj ([("u", .str c.userXid), ("m", .str c.mediaXid), ("p", .str c.purpose), ("e", .int e)] ++
    c.attempt)

structure Grant where
  userXid : Json
  mediaXid : Json
  purpose : Json
  expiresAt : Time
  attemptXid : Json
  deriving DecidableEq

section
variable (mac : Hmac)

def sign (packed : String) : String :=
  .ofList (stripPads (Base64.encode (mac.digest (utf8 packed))))

def encode (payload : Json) : String :=
  let packed := encodeText (dumps compactSorted payload)
  join "." [VERSION, packed, sign mac packed]

def issue (c : Issue) : Option String := c.expires.map (fun e => encode mac (c.payload e))

/-- `json.loads(base64.urlsafe_b64decode(packed + padding))`; what they raise is a `ValueError`. -/
def unpack (packed : String) : Except Raised Json :=
  let cs := packed.toList
  let bytes := if isAscii packed
    then Base64.decode (cs ++ List.replicate ((4 - cs.length % 4) % 4) '=') else none
  match bytes.bind ofUtf8 |>.bind (fun text => loads text.toList) with
  | some payload => .ok payload
  | none => .error .valueError

def malformed : Refusal := .forbidden "This media grant is malformed." "grant_malformed"

def unsupported : Refusal :=
  .forbidden "This media grant uses an old format. Request a new one." "grant_version_unsupported"

def badSignature : Refusal := .forbidden "This media grant is not valid." "grant_bad_signature"

def wrongUser : Refusal :=
  .forbidden "This grant was issued to a different user." "grant_wrong_user"

def wrongMedia : Refusal :=
  .forbidden "This grant was issued for different media." "grant_wrong_media"

def expired : Refusal :=
  .forbidden "This media grant has expired. Request a new one." "grant_expired"

def raises {α : Type} (x : Except Raised α) : Except Refusal α := x.mapError .raised

def decode (token : String) : Except Refusal Json :=
  match splitOn '.' token with
  | [version, packed, signature] =>
    if version ≠ VERSION then .error unsupported
    else do
      let same ← raises (compareDigest (sign mac packed) signature)
      if same then raises (unpack packed) else .error badSignature
  | _ => .error malformed

/-- `verify`, once the token is decoded. -/
def readGrant (payload : Json) (userXid mediaXid : String) (moment : Time) :
    Except Refusal Grant := do
  let d ← raises (dictMethod payload)
  let sameUser ← raises (compareDigest (pyStr (getD d "u" (.str ""))) userXid)
  if !sameUser then throw wrongUser
  let sameMedia ← raises (compareDigest (pyStr (getD d "m" (.str ""))) mediaXid)
  if !sameMedia then throw wrongMedia
  let e ← raises (subscript payload "e")
  let n ← raises (pyInt e)
  let expires ← raises (fromTimestamp n)
  if expires < moment then throw expired
  let u ← raises (subscript payload "u")
  let m ← raises (subscript payload "m")
  return ⟨u, m, getD d "p" (.str "exam"), expires, getD d "a" .null⟩

def verify (token userXid mediaXid : String) (now : Time) : Except Refusal Grant := do
  let payload ← decode mac token
  readGrant payload userXid mediaXid now

/-! ## Object signatures -/

/-- A call of `sign_object`. -/
structure SignObject where
  key : String
  ttlSeconds : ℤ
  now : Time

def SignObject.expires (c : SignObject) : Option ℤ := expiry c.now c.ttlSeconds

def message (key : String) (expires : ℤ) : String := join ":" [key, toString expires]

def objectMac (key : String) (expires : ℤ) : String :=
  .ofList ((sign mac (message key expires)).toList.take 32)

def objectText (key : String) (expires : ℤ) : String :=
  join "." [toString expires, objectMac mac key expires]

def signObject (c : SignObject) : Option String := c.expires.map (objectText mac c.key)

def malformedObject : Refusal := .forbidden "Malformed object signature." "grant_malformed"

def badObject : Refusal := .forbidden "Invalid object signature." "grant_bad_signature"

def expiredObject : Refusal := .forbidden "This URL has expired." "grant_expired"

/-- The two parts of a signature; a `ValueError` on the way is caught. -/
def splitObject (signature : String) : Option (ℤ × String) :=
  match splitOn '.' signature with
  | [expiresRaw, text] =>
    match (intOfText expiresRaw : Except Raised ℤ) with
    | .ok n => some (n, text)
    | .error _ => none
  | _ => none

def verifyObject (key signature : String) (moment : Time) : Except Refusal Unit :=
  match splitObject signature with
  | none => .error malformedObject
  | some (expires, text) => do
    let same ← raises (compareDigest (objectMac mac key expires) text)
    if !same then throw badObject
    let ends ← raises (fromTimestamp expires)
    if ends < moment then throw expiredObject

end

end IeltsHub.MediaGrants
