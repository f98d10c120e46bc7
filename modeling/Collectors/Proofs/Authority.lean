import Collectors.Proofs.Failures
import Collectors.Proofs.Transparency

/-!
# What a token decides

A provider that is guarded by a token refuses every administrative request that does not carry it,
in its first step and before it looks at anything else. So two guarded providers that have nothing
in common but their token cannot be told apart by such requests, neither directly
(`Provider.perform_of_lacks`) nor over HTTP (`Endpoint.handle_of_lacks`).

A provider that is not guarded does the same for every token (`Provider.perform_withToken`), and
the requests to a collector do the same for every guard: two runs of them go along with each other
step by step (`Call.step_withGuard`, `Call.run_withGuard`). `unauthorized_blind` says all of it.
-/

namespace Collectors

variable {β ι ω β₁ ι₁ ω₁ β₂ ι₂ ω₂ : Type}

/-! ### The check -/

theorem AdminToken.check_new {secret : String} (hsecret : secret ≠ "") {token : Option String} :
    (AdminToken.new (some secret)).check token = true ↔
      ∃ text, token = some text ∧ text.toUTF8 = secret.toUTF8 := by
  have hnew : (AdminToken.new (some secret)).secret = some secret := by
    simp [new, hsecret]
  simp only [check, tokenMatches, hnew, decide_eq_true_eq]
  constructor
  · rintro rfl
    exact ⟨secret, rfl, rfl⟩
  · rintro ⟨text, rfl, hbytes⟩
    rw [String.toByteArray_inj.1 hbytes]

/-- No text and the empty text guard nothing. -/
theorem AdminToken.check_unguarded {configured : Option String}
    (h : configured = none ∨ configured = some "") (token : Option String) :
    (AdminToken.new configured).check token = true := by
  rcases h with rfl | rfl <;> rfl

/-- Whether a request is an administrative one that does not carry the text `secret`, byte for
byte. -/
def Request.Lacks (secret : String) (r : Request) : Prop :=
  ∃ token, r.token? = some token ∧ ∀ text, token = some text → text.toUTF8 ≠ secret.toUTF8

/-! ### Refused requests -/

/-- A guarded provider refuses a request that lacks its token before it does anything else. -/
theorem Call.begin_of_lacks {secret : String} (hsecret : secret ≠ "") {p : Provider β ι}
    (hp : p.token = .new (some secret)) {r : Request} (hr : r.Lacks secret) :
    begin p r = .finished (.error .invalidToken) := by
  obtain ⟨token, htoken, hlacks⟩ := hr
  rcases begin_authorize p htoken with ⟨-, h⟩ | ⟨hcheck, -⟩
  · exact h
  · rw [hp, AdminToken.check_new hsecret] at hcheck
    obtain ⟨text, htext, hbytes⟩ := hcheck
    exact absurd hbytes (hlacks text htext)

namespace Provider

/-- What a request comes to that is answered in its first step. -/
theorem perform_of_begin {p : Provider β ι} {r : Request} {result : Except Error Answer}
    (h : Call.begin p r = .finished result) (b : Behaviour β ι ω) (w : ω) :
    p.perform b r w = { call := .finished result, provider := p, world := w } := by
  rw [perform, Call.run_of_not_isDone rfl]
  simp only [Call.step, h]
  rw [Call.run_of_isDone rfl]
  rfl

/-- A request that a provider refuses for its token leaves everything as it was. -/
theorem perform_of_lacks {secret : String} (hsecret : secret ≠ "") {p : Provider β ι}
    (hp : p.token = .new (some secret)) {r : Request} (hr : r.Lacks secret) (b : Behaviour β ι ω)
    (w : ω) :
    p.perform b r w = { call := .finished (.error .invalidToken), provider := p, world := w } :=
  perform_of_begin (Call.begin_of_lacks hsecret hp hr) b w

end Provider

namespace Endpoint

/-- A request that reaches its provider has been read from the body. -/
theorem body_of_plan {limit : Nat} {mint : CollectorId} {http : Http.Request} {h : Host β ι}
    {rpc : Rpc} {place : Nat} {r : Request}
    (hplan : plan limit mint http h = .perform rpc place r) :
    body limit rpc mint http = .ok r := by
  unfold plan at hplan
  split at hplan
  · cases hplan
  · split at hplan
    · cases hplan
    · split at hplan
      · cases hplan
      · cases hplan
      · split at hplan
        · cases hplan
        · split at hplan
          · cases hplan
          · rename_i hbody
            cases hplan
            exact hbody

theorem request_of_body {limit : Nat} {mint : CollectorId} {http : Http.Request} {rpc : Rpc}
    {r : Request} (hbody : body limit rpc mint http = .ok r) :
    ∃ text, request rpc mint text = .ok r := by
  unfold body at hbody
  split at hbody
  · cases hbody
  · split at hbody
    · cases hbody
    · cases hread : request rpc mint (Json.textOf http.body) with
      | ok r' =>
        simp only [hread] at hbody
        cases hbody
        exact ⟨_, hread⟩
      | error fault =>
        simp only [hread] at hbody
        cases fault <;> cases hbody

/-- An administrative request is no greeting. -/
theorem rpc_ne_hello {limit : Nat} {mint : CollectorId} {http : Http.Request} {h : Host β ι}
    {rpc : Rpc} {place : Nat} {r : Request} (hplan : plan limit mint http h = .perform rpc place r)
    {token : Option String} (htoken : r.token? = some token) : rpc ≠ .hello := by
  rintro rfl
  obtain ⟨text, hread⟩ := request_of_body (body_of_plan hplan)
  simp only [request] at hread
  cases hfront : HelloRequest.codec.readFront text with
  | error fault =>
    rw [hfront] at hread
    cases hread
  | ok greeting =>
    rw [hfront] at hread
    cases hread
    cases htoken

theorem same_record {h' h : Host β ι} (hsame : h'.Same h) (rpc : Rpc) (status : Status) :
    (record h' rpc status).Same (record h rpc status) where
  provider? := hsame.provider?
  attached := hsame.attached
  metrics := congrArg (·.record rpc status) hsame.metrics

/-- What is left of a request over HTTP that is refused for its token: only that it was
counted. -/
theorem handle_of_lacks {secret : String} (hsecret : secret ≠ "") {h : Host β ι} {place : Nat}
    {p : Provider β ι} (hp : h.provider? place = some p) (htoken : p.token = .new (some secret))
    {r : Request} (hr : r.Lacks secret) {limit : Nat} {mint : CollectorId} {http : Http.Request}
    {rpc : Rpc} (hplan : plan limit mint http h = .perform rpc place r) (b : Behaviour β ι ω)
    (w : ω) :
    let next := handle b limit mint http h w
    next.response = answer rpc (.error .invalidToken) ∧
      next.host.Same (record h rpc .invalidToken) ∧ next.world = w ∧ next.warnings = [] := by
  have hperform := p.perform_of_lacks hsecret htoken hr b w
  have hstatus : statusOf rpc (.error .invalidToken) = .invalidToken := by
    obtain ⟨token, hadmin, -⟩ := hr
    have hne := rpc_ne_hello hplan hadmin
    cases rpc <;> first | rfl | exact absurd rfl hne
  simp only [handle, hplan, Host.perform, hp, hperform, Call.result?, ofWorker, hstatus]
  exact ⟨trivial, same_record (Host.same_put hp) rpc .invalidToken, trivial, trivial⟩

end Endpoint

/-! ### Providers that are not guarded -/

namespace Request

/-- A provider that is not guarded begins every request in the same way, whatever token it
carries. -/
theorem begin_withToken {p : Provider β ι} (hp : ∀ token, p.token.check token = true)
    (r : Request) (token : Option String) : Call.begin p (r.withToken token) = Call.begin p r := by
  have hallowed : ∀ token, p.authorize token = .ok () := fun token => if_pos (hp token)
  cases r <;> simp only [withToken, Call.begin, hallowed]

end Request

namespace Provider

theorem perform_withToken {p : Provider β ι} (hp : ∀ token, p.token.check token = true)
    (b : Behaviour β ι ω) (r : Request) (token : Option String) (w : ω) :
    p.perform b (r.withToken token) w = p.perform b r w := by
  have hstart (r : Request) : (Call.start r : Call β ι).isDone = false := rfl
  rw [perform, perform, Call.run_of_not_isDone (hstart _), Call.run_of_not_isDone (hstart r)]
  simp only [Call.step, r.begin_withToken hp]

/-! ### Requests to a collector -/

/-- The same provider under another guard. -/
def withGuard (guard : AdminToken) (p : Provider β ι) : Provider β ι := { p with token := guard }

end Provider

namespace Call

/-- The same outcome for a provider under another guard. -/
def Next.withGuard (guard : AdminToken) (n : Next β ι ω) : Next β ι ω :=
  { n with provider := n.provider.withGuard guard }

/-- Whether nobody will ask for the token of a call any more. -/
def Free : Call β ι → Prop
  | start r => r.token? = none
  | _ => True

theorem free_ofRemoval (r : Removal ι) : (ofRemoval r : Call β ι).Free := by
  cases r <;> trivial

theorem free_ofOutcome {α : Type} (give : α → Answer) (r : Option (Except Error α)) :
    (ofOutcome give r : Call β ι).Free := by
  cases r <;> trivial

variable {call : Call β ι}

theorem Free.step (h : call.Free) (b : Behaviour β ι ω) (p : Provider β ι) (w : ω) :
    (call.step b p w).call.Free := by
  cases call with
  | start r =>
    cases r with
    | instantiate | close | destroy | list => cases h
    | shutdown => trivial
    | hello | sum | invoke => simp only [Call.step, begin]; split <;> trivial
  | remove r => exact free_ofRemoval _
  | hello | sum | invoke => exact free_ofOutcome _ _
  | checkClosed | findBackend | instantiate | insert | closeRefused | detachToDestroy | destroy =>
    simp only [Call.step]; split <;> trivial
  | list | finished | broken => trivial

/-- **A step of a call that has no token to show is the same under every guard.** -/
theorem step_withGuard (h : call.Free) (guard : AdminToken) (b : Behaviour β ι ω)
    (p : Provider β ι) (w : ω) :
    call.step b (p.withGuard guard) w = (call.step b p w).withGuard guard := by
  cases call with
  | start r =>
    cases r with
    | instantiate | close | destroy | list => cases h
    | _ => rfl
  | instantiate made mode backend config id =>
    simp only [Call.step]
    split <;> rfl
  | insert c =>
    simp only [Call.step, Provider.withGuard]
    cases p.table.insert c <;> rfl
  | closeRefused c e =>
    simp only [Call.step]
    split <;> rfl
  | detachToDestroy id =>
    simp only [Call.step, Provider.withGuard]
    cases p.table.take id <;> rfl
  | destroy c =>
    simp only [Call.step]
    split <;> rfl
  | _ => rfl

/-- So is a whole run. -/
theorem run_withGuard (h : call.Free) (guard : AdminToken) (b : Behaviour β ι ω)
    (p : Provider β ι) (w : ω) :
    call.run b (p.withGuard guard) w = (call.run b p w).withGuard guard := by
  fun_induction call.run b p w with
  | case1 call p w hdone => exact run_of_isDone hdone _ _
  | case2 call p w hdone next last ih =>
    have hnext := ih (h.step b p w)
    rw [run_of_not_isDone (by simpa using hdone), step_withGuard h]
    simp only [Next.withGuard] at hnext ⊢
    rw [hnext]

end Call

namespace Host

/-- The same host with another guard for the provider at a place. -/
def withGuard (guard : AdminToken) (place : Nat) (h : Host β ι) : Host β ι :=
  { h with providers := h.providers.modify place (Provider.withGuard guard) }

theorem provider?_withGuard (guard : AdminToken) (place : Nat) (h : Host β ι) :
    (h.withGuard guard place).provider? place =
      (h.provider? place).map (Provider.withGuard guard) := by
  simp only [provider?, withGuard, List.getElem?_modify_eq, Option.map_eq_map, Option.map_map]
  rfl

theorem put_withGuard (guard : AdminToken) (place : Nat) (h : Host β ι) (p : Provider β ι) :
    (h.withGuard guard place).put place (p.withGuard guard) =
      (h.put place p).withGuard guard place := by
  have hproviders : (h.providers.modify place (Provider.withGuard guard)).set place
      (p.withGuard guard) = (h.providers.set place p).modify place (Provider.withGuard guard) := by
    refine List.ext_getElem? fun i => ?_
    simp only [List.getElem?_set, List.getElem?_modify, List.length_modify]
    split <;> rename_i hi
    · subst hi
      split <;> rfl
    · rfl
  simp only [put, withGuard, hproviders]
  rfl

/-- What a request comes to that carries no token does not depend on the guard. -/
theorem perform_withGuard {r : Request} (hr : r.token? = none) (guard : AdminToken)
    (place : Nat) (b : Behaviour β ι ω) (h : Host β ι) (w : ω) :
    (h.withGuard guard place).perform b place r w =
      { h.perform b place r w with
        host := (h.perform b place r w).host.withGuard guard place } := by
  have hstart : (Call.start r : Call β ι).Free := hr
  simp only [perform, provider?_withGuard]
  cases h.provider? place with
  | none => rfl
  | some p =>
    simp only [Option.map_some, Provider.perform, Call.run_withGuard hstart, Call.Next.withGuard,
      put_withGuard]

end Host

namespace Endpoint

variable {limit : Nat} {mint : CollectorId} {http http' : Http.Request} {h : Host β ι} {rpc : Rpc}
  {place : Nat} {r : Request}

/-- An HTTP request is checked without a look at any provider. -/
theorem plan_withGuard (guard : AdminToken) (limit : Nat) (mint : CollectorId)
    (http : Http.Request) (h : Host β ι) (place : Nat) :
    plan limit mint http (h.withGuard guard place) = plan limit mint http h := rfl

theorem handle_withGuard (hplan : plan limit mint http h = .perform rpc place r)
    (hr : r.token? = none) (guard : AdminToken) (b : Behaviour β ι ω) (w : ω) :
    handle b limit mint http (h.withGuard guard place) w =
      { handle b limit mint http h w with
        host := (handle b limit mint http h w).host.withGuard guard place } := by
  simp only [handle, plan_withGuard, hplan, Host.perform_withGuard hr]
  rfl

theorem handle_withToken {p : Provider β ι} (hp : h.provider? place = some p)
    (hunguarded : ∀ token, p.token.check token = true) {token : Option String}
    (hplan : plan limit mint http h = .perform rpc place r)
    (hplan' : plan limit mint http' h = .perform rpc place (r.withToken token))
    (b : Behaviour β ι ω) (w : ω) :
    handle b limit mint http' h w = handle b limit mint http h w := by
  simp only [handle, hplan, hplan', Host.perform, hp, p.perform_withToken hunguarded]

end Endpoint

/-! ### What a token decides -/

/-- Administrative requests without the token `secret` do not tell two providers apart that are
guarded by it, and change neither: the provider `p₁` at a place of `h₁`, and `p₂` at a place
of `h₂`. -/
structure Blind (secret : String) (b₁ : Behaviour β₁ ι₁ ω₁) (h₁ : Host β₁ ι₁) (place₁ : Nat)
    (p₁ : Provider β₁ ι₁) (b₂ : Behaviour β₂ ι₂ ω₂) (h₂ : Host β₂ ι₂) (place₂ : Nat)
    (p₂ : Provider β₂ ι₂) : Prop where
  /-- Whatever is asked directly, the answers are the same, the providers and the states of the
  backends stay as they were, and the count of the calls into backends does not move. -/
  direct : ∀ r₁ r₂ : Request, r₁.Lacks secret → r₂.Lacks secret → ∀ (n : Nat) (w₁ : ω₁) (w₂ : ω₂),
    let next₁ := p₁.perform b₁.counted r₁ (n, w₁)
    let next₂ := p₂.perform b₂.counted r₂ (n, w₂)
    next₁.call.result? = next₂.call.result? ∧ next₁.call.result? = some (.error .invalidToken) ∧
      (next₁.provider = p₁ ∧ next₁.world = (n, w₁)) ∧ next₂.provider = p₂ ∧ next₂.world = (n, w₂)
  /-- Over HTTP as well, where the request is counted as one with an invalid token. -/
  overHttp : ∀ (limit : Nat) (mint₁ mint₂ : CollectorId) (http : Http.Request) (rpc : Rpc)
    (r₁ r₂ : Request), r₁.Lacks secret → r₂.Lacks secret →
    Endpoint.plan limit mint₁ http h₁ = .perform rpc place₁ r₁ →
    Endpoint.plan limit mint₂ http h₂ = .perform rpc place₂ r₂ →
    ∀ (n : Nat) (w₁ : ω₁) (w₂ : ω₂),
    let next₁ := Endpoint.handle b₁.counted limit mint₁ http h₁ (n, w₁)
    let next₂ := Endpoint.handle b₂.counted limit mint₂ http h₂ (n, w₂)
    next₁.response = next₂.response ∧
      (rpc ≠ .hello ∧ next₁.response = Endpoint.answer rpc (.error .invalidToken)) ∧
      (next₁.host.Same (Endpoint.record h₁ rpc .invalidToken) ∧ next₁.world = (n, w₁)) ∧
      next₂.host.Same (Endpoint.record h₂ rpc .invalidToken) ∧ next₂.world = (n, w₂)

/-- Nobody needs a token for a provider that is configured with none, or with the empty one. -/
structure Behaviour.AnyToken (b : Behaviour β ι ω) : Prop where
  /-- A request comes to the same with every token. -/
  direct : ∀ (p : Provider β ι) (configured : Option String),
    configured = none ∨ configured = some "" → p.token = .new configured →
    ∀ (r : Request) (token : Option String) (w : ω),
    p.perform b (r.withToken token) w = p.perform b r w
  /-- So do two HTTP requests that differ in the token of what they ask. -/
  overHttp : ∀ (h : Host β ι) (place : Nat) (p : Provider β ι) (configured : Option String),
    h.provider? place = some p → configured = none ∨ configured = some "" →
    p.token = .new configured →
    ∀ (limit : Nat) (mint : CollectorId) (http http' : Http.Request) (rpc : Rpc) (r : Request)
      (token : Option String),
    Endpoint.plan limit mint http h = .perform rpc place r →
    Endpoint.plan limit mint http' h = .perform rpc place (r.withToken token) →
    ∀ w : ω, Endpoint.handle b limit mint http' h w = Endpoint.handle b limit mint http h w

/-- The guard of a provider makes no difference to a request that carries no token. -/
structure Behaviour.AnyGuard (b : Behaviour β ι ω) : Prop where
  /-- It comes to the same under every guard, but for the guard itself. -/
  direct : ∀ (p : Provider β ι) (guard : AdminToken) (r : Request), r.token? = none →
    ∀ w : ω, (p.withGuard guard).perform b r w = (p.perform b r w).withGuard guard
  /-- So it does over HTTP. -/
  overHttp : ∀ (h : Host β ι) (place : Nat) (guard : AdminToken) (limit : Nat)
    (mint : CollectorId) (http : Http.Request) (rpc : Rpc) (r : Request), r.token? = none →
    Endpoint.plan limit mint http h = .perform rpc place r →
    ∀ w : ω,
    let next := Endpoint.handle b limit mint http h w
    Endpoint.handle b limit mint http (h.withGuard guard place) w =
      { next with host := next.host.withGuard guard place }

/-- **Without the token of a provider nobody learns or changes anything** by administrative
requests; without a token to check, and without a need for one, tokens make no difference. -/
theorem unauthorized_blind {secret : String} (hsecret : secret ≠ "") {h₁ : Host β₁ ι₁}
    {place₁ : Nat} {p₁ : Provider β₁ ι₁} (hp₁ : h₁.provider? place₁ = some p₁)
    (hguard₁ : p₁.token = .new (some secret)) {h₂ : Host β₂ ι₂} {place₂ : Nat}
    {p₂ : Provider β₂ ι₂} (hp₂ : h₂.provider? place₂ = some p₂)
    (hguard₂ : p₂.token = .new (some secret)) (b₁ : Behaviour β₁ ι₁ ω₁)
    (b₂ : Behaviour β₂ ι₂ ω₂) (b : Behaviour β ι ω) :
    Blind secret b₁ h₁ place₁ p₁ b₂ h₂ place₂ p₂ ∧ b.AnyToken ∧ b.AnyGuard := by
  refine ⟨⟨?_, ?_⟩, ⟨?_, ?_⟩, ⟨?_, ?_⟩⟩
  · intro r₁ r₂ hr₁ hr₂ n w₁ w₂
    simp only [p₁.perform_of_lacks hsecret hguard₁ hr₁, p₂.perform_of_lacks hsecret hguard₂ hr₂]
    exact ⟨rfl, rfl, ⟨trivial, trivial⟩, trivial, trivial⟩
  · intro limit mint₁ mint₂ http rpc r₁ r₂ hr₁ hr₂ hplan₁ hplan₂ n w₁ w₂
    obtain ⟨hresponse₁, hsame₁, hworld₁, -⟩ :=
      Endpoint.handle_of_lacks hsecret hp₁ hguard₁ hr₁ hplan₁ b₁.counted (n, w₁)
    obtain ⟨hresponse₂, hsame₂, hworld₂, -⟩ :=
      Endpoint.handle_of_lacks hsecret hp₂ hguard₂ hr₂ hplan₂ b₂.counted (n, w₂)
    obtain ⟨token, hadmin, -⟩ := hr₁
    exact ⟨hresponse₁.trans hresponse₂.symm, ⟨Endpoint.rpc_ne_hello hplan₁ hadmin, hresponse₁⟩,
      ⟨hsame₁, hworld₁⟩, hsame₂, hworld₂⟩
  · intro p configured hnone hguard r token w
    exact p.perform_withToken (hguard ▸ AdminToken.check_unguarded hnone) b r token w
  · intro h place p configured hp hnone hguard limit mint http http' rpc r token hplan hplan' w
    exact Endpoint.handle_withToken hp (hguard ▸ AdminToken.check_unguarded hnone) hplan hplan' b w
  · intro p guard r hr w
    have hstart : (Call.start r : Call β ι).Free := hr
    exact Call.run_withGuard hstart guard b p w
  · intro h place guard limit mint http rpc r hr hplan w
    exact Endpoint.handle_withGuard hplan hr guard b w

/-! ### Two hosts that look alike -/

/-- A host with one provider, which is guarded. -/
def Host.guarded (table : Table Nat) : Host Unit Nat where
  providers := [{ id := 0, token := .new (some "secret"), table, poolSize := 1 }]
  attached := [(0, 0)]

namespace RemoteCall

/-- Asks for ids with a wrong token. -/
def guess : RemoteCall := .list { token := some "Secret", maxIds := 5 }

theorem size_guess : guess.body.utf8ByteSize ≤ defaultBodyLimit := by decide +kernel

theorem lacks_guess : (guess.request Traffic.nilId).Lacks "secret" := by
  refine ⟨some "Secret", rfl, ?_⟩
  intro text htext hbytes
  obtain rfl := Option.some.inj htext
  exact absurd (String.toByteArray_inj.1 hbytes) (by decide)

/-- A table with a collector and a closed table answer a wrong guess in the same way. -/
theorem unauthorized_blind_guess :
    let http := Endpoint.posted (Rpc.path 0 guess.rpc.name) guess.body
    let next₁ := Endpoint.handle Dummy.behaviour.counted defaultBodyLimit Traffic.nilId http
      (Host.guarded { entries := [Traffic.first] }) (0, {})
    let next₂ := Endpoint.handle Dummy.behaviour.counted defaultBodyLimit Traffic.nilId http
      (Host.guarded { closed := true }) (0, { configs := #[none] })
    next₁.response = next₂.response ∧
      next₁.response = Endpoint.answer .listCollectors (.error .invalidToken) ∧
      next₁.world.1 = 0 ∧ next₂.world.1 = 0 := by
  intro http next₁ next₂
  have hreceived : guess.Received guess := rfl
  have hplan (table : Table Nat) :=
    Endpoint.plan_posted hreceived size_guess Traffic.nilId 0 (Host.guarded table)
  have hsecret : "secret" ≠ "" := by decide
  have hp (table : Table Nat) : (Host.guarded table).provider? 0 =
      some { id := 0, token := .new (some "secret"), table := { table with gauge := none },
             poolSize := 1 } := rfl
  obtain ⟨hblind, -⟩ := unauthorized_blind hsecret (hp { entries := [Traffic.first] }) rfl
    (hp { closed := true }) rfl Dummy.behaviour Dummy.behaviour Dummy.behaviour
  obtain ⟨hsame, ⟨-, hanswer⟩, ⟨-, hworld₁⟩, -, hworld₂⟩ :=
    hblind.overHttp defaultBodyLimit Traffic.nilId Traffic.nilId http .listCollectors _ _
      lacks_guess lacks_guess (hplan _) (hplan _) 0 {} { configs := #[none] }
  exact ⟨hsame, hanswer, congrArg Prod.fst hworld₁, congrArg Prod.fst hworld₂⟩

end RemoteCall
end Collectors
