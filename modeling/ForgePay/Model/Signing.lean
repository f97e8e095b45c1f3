import ForgePay.Library.Encoding
import ForgePay.Model.Domain
import Mathlib.Algebra.Order.Group.Unbundled.Int

/-!
# The signatures of webhooks

`forgepay_security/webhooks.py`.  HMAC-SHA256 is a parameter: the bytes of its digest for a key
and a message.
-/

set_option autoImplicit false

namespace ForgePay

variable (hmacSha256 : (key message : List Py.Byte) → List Py.Byte)

/-- What the interpreter says of an integer with too many digits. -/
def tooManyDigits : PyError := .valueError ("Exceeds the limit (4300 digits) for integer string " ++
  "conversion; use sys.set_int_max_str_digits() to increase the limit")

/-- `sign_webhook`. -/
def signWebhook (secret : Py.Str) (timestamp : ℤ) (body : List Py.Byte) :
    Except PyError Py.Str := do
  let text ← (Py.formatInt timestamp).elim (.error tooManyDigits) .ok
  let signed := Py.encode (text ++ Py.str ".") ++ body
  let key ← (Py.encodeStrict secret).elim (.error .unicodeEncodeError) .ok
  let digest := Py.hex (hmacSha256 key signed)
  return Py.str "t=" ++ text ++ Py.str ",v1=" ++ digest

/-- `verify_webhook`, at the clock `now`. -/
def verifyWebhook (now : ℤ) (secret signature : Py.Str) (timestamp : ℤ) (body : List Py.Byte)
    (toleranceSeconds : ℤ) : Except PyError Bool := do
  if |now - timestamp| > toleranceSeconds then
    return false
  let expected ← signWebhook hmacSha256 secret timestamp body
  (Py.compareDigest expected signature).elim (.error .typeError) .ok

end ForgePay
