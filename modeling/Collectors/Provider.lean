import Collectors.AdminToken
import Collectors.Backend.Dummy
import Collectors.Config
import Collectors.Registry
import Collectors.Table
import Collectors.WorkerPool

/-!
# Providers

A provider owns the backends of one provider id and the collectors that they made. Administration
is guarded by a token. Its requests are answered by `Call`.
-/

namespace Collectors

/-- The owner of the collectors of one provider id. -/
structure Provider (β ι : Type) where
  id : ProviderId
  token : AdminToken
  registry : Registry β := {}
  table : Table ι := {}
  /-- The number of workers. -/
  poolSize : Nat

/-- A text in double quotes, its special characters escaped, for people who look into a
program. -/
def quoted (s : String) : String :=
  let escape (c : Char) : List Char :=
    if c = '"' then ['\\', '"'] else if c = '\\' then ['\\', '\\']
    else if c = '\n' then ['\\', 'n'] else if c = '\r' then ['\\', 'r']
    else if c = '\t' then ['\\', 't'] else if c.toNat = 0 then ['\\', '0']
    else if c.toNat < 32 ∨ (127 ≤ c.toNat ∧ c.toNat < 160) then
      ['\\', 'u', '\x7b'] ++ Nat.toDigits 16 c.toNat ++ ['\x7d']
    else [c]
  String.ofList ('"' :: s.toList.flatMap escape ++ ['"'])

namespace Provider

variable {β ι : Type}

/-- A provider as it is configured, with the built-in backend registered; `none` if there cannot
be so many workers. Its gauge shows no collector. -/
def new (config : ProviderConfig) (dummy : β) : Option (Provider β ι) :=
  if WorkerPool.sizeFor config.poolSize ≤ maxWorkers then
    some
      { id := config.providerId
        token := AdminToken.new config.token
        registry := { entries := [(Dummy.backendName, dummy)] }
        table := Table.withGauge (some 0)
        poolSize := WorkerPool.sizeFor config.poolSize }
  else none

/-- Registers another backend. -/
def registerBackend (p : Provider β ι) (name : String) (backend : β) :
    Except Error (Provider β ι) :=
  (p.registry.register name backend).map fun r => { p with registry := r }

/-- Lets an administrative call through if it carries the token. -/
def authorize (p : Provider β ι) (token : Option String) : Except Error Unit :=
  if p.token.check token then .ok () else .error .invalidToken

theorem authorize_of_check {p : Provider β ι} {token : Option String}
    (h : p.token.check token = true) : p.authorize token = .ok () :=
  if_pos h

/-- A short description for people who look into a program. -/
def debugText (p : Provider β ι) : String :=
  "Provider \x7b provider_id: " ++ toString p.id ++ ", backends: [" ++
    ", ".intercalate (p.registry.names.map quoted) ++ "], collectors: " ++
    toString p.table.size ++ " \x7d"

end Provider
end Collectors
