import HomelabApps.Library.SharedFetch
import HomelabApps.Library.Utf16

namespace HomelabApps.HttpProvider

open HomelabApps.Library
open HomelabApps.Library.Utf16

def EXPIRY_BUFFER_SECONDS : Int := 30

structure JwtClaims where
  exp : { exp : Nat // 0 < exp }

structure Token where
  text : JsString
  exp : Nat

def seconds (now : Nat) : Nat := now / 1000

/-- The token that signing gives: `setExpirationTime` reads the clock at the time `signedAt`. -/
def generateToken (claims : JwtClaims) (signedAt : Nat) (text : JsString) : Token :=
  { text, exp := seconds signedAt + claims.exp }

/-- The cache of the strategy. A fetch is answered with the text that was signed, and when its claims
were set, or generating the token failed; the expiry recorded is that of the time it came back. -/
def JwtSelfSignedStrategy (claims : JwtClaims) :
    SharedFetch.Source (Except JsString (Nat × JsString)) JsString Token Token Nat where
  receive startedAt now answer :=
    match answer with
    | .error error => some (.error error)
    | .ok (signedAt, text) =>
      if startedAt ≤ signedAt ∧ signedAt ≤ now then some (.ok (generateToken claims signedAt text)) else none
  value := id
  expiry now _ := some (seconds now + claims.exp)
  usable now token expiresAt :=
    token.text ≠ [] &&
      match expiresAt with
      | none => true
      | some expiresAt => (seconds now : Int) < expiresAt - EXPIRY_BUFFER_SECONDS
  lapses := by
    intro t u token expiresAt htu husable
    rw [Bool.and_eq_true] at husable ⊢
    refine ⟨husable.1, ?_⟩
    cases expiresAt with
    | none => rfl
    | some expiresAt =>
      have hseconds : seconds t ≤ seconds u := Nat.div_le_div_right htu
      have hlt : (seconds u : Int) < expiresAt - EXPIRY_BUFFER_SECONDS := of_decide_eq_true husable.2
      exact decide_eq_true (Int.lt_of_le_of_lt (Int.ofNat_le.mpr hseconds) hlt)

end HomelabApps.HttpProvider
