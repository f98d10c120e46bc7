/-!
# Admin tokens

A provider may be guarded by a token that every administrative call has to carry. The empty token
guards nothing, like no token at all.
-/

namespace Collectors

/-- Whether a call that carries `supplied` passes a check for `configured`: it does if nothing is
configured, and else only with exactly the configured text. -/
def tokenMatches (configured supplied : Option String) : Bool :=
  match configured with
  | none => true
  | some expected => supplied = some expected

/-- The token that guards the administration of one provider. -/
structure AdminToken where
  /-- The text to carry; `none` if the provider is not guarded. -/
  secret : Option String
  secret_ne_empty : secret ≠ some ""
  deriving DecidableEq

namespace AdminToken

/-- The guard for a configured text. -/
def new (configured : Option String) : AdminToken where
  secret := configured.filter (· ≠ "")
  secret_ne_empty := by simp [Option.filter_eq_some_iff]

/-- No guard. -/
def disabled : AdminToken := ⟨none, nofun⟩

instance : Inhabited AdminToken := ⟨disabled⟩

/-- Whether there is something to check. -/
def isEnabled (t : AdminToken) : Bool := t.secret.isSome

/-- Whether a call that carries `supplied` is allowed. -/
def check (t : AdminToken) (supplied : Option String) : Bool := tokenMatches t.secret supplied

end AdminToken
end Collectors
