import Collectors.Proofs.Configurations
import Collectors.Proofs.Keeping
import Collectors.Proofs.Transparency
import Collectors.Proofs.Values

/-!
# Configurations that come back

A collector of the dummy backend that was made over the wire is asked for its configuration over
the wire, after anything that does not end it. `Session.config_comes_back` says that the client gets
the value of the configuration that it sent.

Three things are put together: the value is stored when the collector is made (`Session.made`), the
collector stays in its table and therefore its value in the store (`Session.Kept.config?`), and the
value comes back from its text (`Json.portable_of_read`).

Value and arguments need room: of a value that nests too deep for the answer, and for arguments
that are too deep or too long for the request, nothing comes back (`Session.config_lost`).
-/

namespace Collectors

open Json (Codec maxDepth)

variable {β ι ω : Type}

/-! ### Calls over the wire -/

/-- Arguments that are not read make a request unreadable. -/
theorem InvokeRequest.decode_error {r : InvokeRequest} {fault : Json.Fault}
    (h : r.args.document.toJson 126 = .error fault) :
    codec.decode maxDepth (codec.encode r).document = .error fault := by
  have hid : CollectorId.codec.decode 126 (.string (some r.id.text)) = .ok r.id :=
    r.id.reads_codec
  have htext : Codec.text.decode 126 (.string (some r.operation)) = .ok r.operation := rfl
  have hargs : Codec.free.decode 126 r.args.document = .error fault := h
  show codec.decode 127 (.object [(some "id", .string (some r.id.text)),
    (some "operation", .string (some r.operation)), (some "args", r.args.document)] .closed) = _
  simp [codec, Codec.via, Codec.record, Json.Fields.storeAll, Json.Fields.store, Json.Fields.empty,
    Json.Field.required, Json.Field.default, hid, htext, hargs, bind, Except.bind, Except.map]

theorem Json.whole_nested (n : Nat) : (Json.nested n).Whole := by
  induction n with
  | zero => trivial
  | succ n ih => exact ⟨ih, trivial⟩

namespace Endpoint

/-- What a call comes to that is posted to an endpoint with the provider. -/
theorem post_found (b : Behaviour β ι ω) {call received : RemoteCall}
    (hreceived : call.Received received) {limit : Nat}
    (hsize : call.body.utf8ByteSize ≤ limit) (mint : CollectorId) (a : Address)
    {h : Host β ι} {place : Nat} (hfind : h.find a.providerId = .ok place) (w : ω) :
    (network b limit mint a.baseUrl).post (a.url call.rpc.name) call.body (h, w) =
      let next := h.perform b place (received.request mint) w
      let result := ofWorker next.result
      (.ok (answer call.rpc result),
        (record next.host call.rpc (statusOf call.rpc result), next.world)) := by
  rw [post_url]
  simp only [handle, plan_posted hreceived hsize, hfind]

/-- What it comes to at an endpoint without the provider. -/
theorem post_missing (b : Behaviour β ι ω) {call received : RemoteCall}
    (hreceived : call.Received received) {limit : Nat}
    (hsize : call.body.utf8ByteSize ≤ limit) (mint : CollectorId) (a : Address)
    {h : Host β ι} {e : Error} (hfind : h.find a.providerId = .error e) (w : ω) :
    (network b limit mint a.baseUrl).post (a.url call.rpc.name) call.body (h, w) =
      (.ok (answer call.rpc (.error e)), (record h call.rpc e.status, w)) := by
  rw [post_url]
  simp only [handle, plan_posted hreceived hsize, hfind]

/-- What it comes to at an endpoint that does not take its body. -/
theorem post_refused (b : Behaviour β ι ω) (call : RemoteCall) {limit : Nat} {mint : CollectorId}
    (a : Address) {e : Error}
    (hbody : body limit call.rpc mint (posted (Rpc.path a.providerId call.rpc.name) call.body) =
      .error e) {h : Host β ι} {place : Nat} (hfind : h.find a.providerId = .ok place) (w : ω) :
    (network b limit mint a.baseUrl).post (a.url call.rpc.name) call.body (h, w) =
      (.ok (answer call.rpc (.error e)), (record h call.rpc e.status, w)) := by
  rw [post_url]
  simp only [handle, plan_path, hfind, hbody]

/-- What a call is answered whose body is too long. -/
def oversized : Error :=
  .protocol "Failed to buffer the request body: length limit exceeded"

theorem body_oversized {limit : Nat} {text : String} (h : limit < text.utf8ByteSize) (rpc : Rpc)
    (mint : CollectorId) (target : String) :
    body limit rpc mint (posted target text) = .error oversized := by
  have hlimit : limit < text.toUTF8.size := h
  simp only [body, posted, declaresJson_jsonType, not_true_eq_false, if_false]
  exact if_pos hlimit

/-- What a call is answered whose body cannot be read. -/
def unreadable : Error :=
  .protocol ("Failed to parse the request body as JSON: " ++ Json.Fault.malformed.message)

/-- The body of a call cannot be read whose arguments nest too deep. -/
theorem body_unreadable {handle : Handle} {operation : String} {args : Json}
    (hargs : args.Portable) (hdeep : 126 < args.depth) {limit : Nat}
    (hsize : (RemoteCall.invoke handle operation args).body.utf8ByteSize ≤ limit)
    (mint : CollectorId) (target : String) :
    body limit .invoke mint (posted target (RemoteCall.invoke handle operation args).body) =
      .error unreadable := by
  have hlimit : ¬ limit < (RemoteCall.invoke handle operation args).body.toUTF8.size :=
    Nat.not_lt.2 hsize
  have hrequest : request .invoke mint (RemoteCall.invoke handle operation args).body =
      .error .malformed := by
    have hread : InvokeRequest.codec.readFront
        (InvokeRequest.codec.write { id := handle.collector, operation, args }) =
        .error .malformed := by
      rw [Codec.readFront, Codec.write, Json.ofText_render]
      exact InvokeRequest.decode_error (Json.toJson_document_deep args hargs hdeep)
    simp only [request, RemoteCall.body, hread]
    rfl
  simp only [body, posted, declaresJson_jsonType, not_true_eq_false, if_false, if_neg hlimit,
    Json.textOf_toUTF8, hrequest]
  rfl

end Endpoint

theorem Table.mem_of_insert {t t' : Table ι} {c : Collector ι} (h : t.insert c = .ok t') :
    c ∈ t'.entries := by
  rcases t.insert_cases c with ⟨-, hi⟩ | ⟨-, -, hi⟩ | ⟨-, -, t'', hi, hentries, -⟩ <;>
    rw [h] at hi <;> cases hi
  rw [hentries]
  exact List.mem_append_right _ (List.mem_singleton.2 rfl)

/-- A request for a collector fails where the table is closed. -/
theorem Provider.result_closed {b : Behaviour β ι ω} {p : Provider β ι} {w : ω} {mode : Mode}
    {token config : Option String} {backend : String} {id : CollectorId}
    (hcheck : p.token.check token = true) (hclosed : p.table.closed = true) :
    (p.perform b (.instantiate mode token backend config id) w).call.result? =
      some (.error .tableClosed) := by
  rw [perform, Call.call_run rfl]
  simp only [Call.step, Call.begin, authorize_of_check hcheck]
  rw [Call.call_run rfl]
  simp only [Call.step, hclosed, if_true]
  rw [Call.call_run_done rfl]
  rfl

/-- What a request for a collector comes to whose backend makes an instance that can be closed: it
fails, or the collector is entered. -/
theorem Provider.perform_instantiate {b : Behaviour β ι ω} {p : Provider β ι} {w w' : ω}
    {mode : Mode} (token : Option String) {config : Option String} {backend : String}
    (id : CollectorId) {made : β} {i : ι} (hfound : p.registry.find? backend = some made)
    (hmade : b.instantiate made mode config w = (some (.ok i), w'))
    (hclose : ∃ r w'', b.close i w' = (some r, w'')) :
    let next := p.perform b (.instantiate mode token backend config id) w
    (∃ e, next.call.result? = some (.error e) ∧ e.status ≠ .success) ∨
      ∃ t, p.table.insert { id, backend, resource := i } = .ok t ∧
        next.call.result? = some (.ok (.id id)) ∧ next.provider = { p with table := t } ∧
        next.world = w' := by
  intro next
  rcases Call.begin_authorize p (r := .instantiate mode token backend config id) rfl with
    ⟨-, hbegin⟩ | ⟨hcheck, hallowed⟩
  · refine .inl ⟨.invalidToken, ?_, Status.noConfusion⟩
    rw [show next = _ from perform_of_begin hbegin b w]
    rfl
  · rcases p.table.insert_cases { id, backend, resource := i } with
      ⟨hclosed, -⟩ | ⟨hopen, hpresent, -⟩ | ⟨hopen, -, t, hinsert, -⟩
    · exact .inl ⟨_, result_closed hcheck hclosed, Status.noConfusion⟩
    · obtain ⟨r, w'', hr⟩ := hclose
      obtain ⟨hresult, -⟩ := perform_taken hcheck hopen hfound hmade hpresent hr
      exact .inl ⟨_, hresult, Status.noConfusion⟩
    · exact .inr ⟨t, hinsert, perform_entered hcheck hopen hfound hmade hinsert⟩

namespace RemoteCall

/-- Whether a call asks for a collector as `r` says. -/
def Makes (call : RemoteCall) (r : InstantiateRequest) : Prop :=
  call = create r ∨ call = openExisting r

variable {call : RemoteCall} {r : InstantiateRequest}

theorem Makes.received (h : call.Makes r) : call.Received call := by
  rcases h with rfl | rfl <;> rfl

theorem Makes.request (h : call.Makes r) (mint : CollectorId) :
    ∃ mode, call.request mint = .instantiate mode r.token r.backend r.config mint := by
  rcases h with rfl | rfl <;> exact ⟨_, rfl⟩

variable {σ : Type} {net : Network σ} {a : Address} {s s' s₁ : σ} {mint id : CollectorId}

/-- What a client makes of a result that it is answered. -/
theorem make_of_ok (hgoes : call.GoesTo a) {answer : Answer} {seen : Except Error Answer}
    (hpost : net.post (a.url call.rpc.name) call.body s =
      (.ok (Endpoint.answer call.rpc (.ok answer)), s'))
    (hallows : (call.request mint).Allows (.ok answer)) (hseen : Seen (.ok answer) seen) :
    call.make net a s = (call.told seen, s') :=
  make_of_post hgoes hpost nofun (by rintro _ ⟨⟩; exact hallows) hseen

/-- What a client makes of an error that it is answered. -/
theorem make_of_error (hgoes : call.GoesTo a) {e : Error}
    (hpost : net.post (a.url call.rpc.name) call.body s =
      (.ok (Endpoint.answer call.rpc (.error e)), s'))
    (hstatus : e.status ≠ .success) : call.make net a s = (call.told (.error e), s') := by
  have hallows : ∀ answer, (.error e : Except Error Answer) = .ok answer →
      (call.request Traffic.nilId).Allows (.ok answer) := nofun
  have hseen : Seen (.error e) (.error e) := rfl
  exact make_of_post hgoes hpost (by rintro _ ⟨⟩; exact hstatus) hallows hseen

theorem Makes.goesTo (h : call.Makes r) (a : Address) : call.GoesTo a := by
  rcases h with rfl | rfl <;> trivial

theorem Makes.told (h : call.Makes r) (result : Except Error Answer) :
    call.told result = result.mapError fun e => .remote e.status e.message := by
  rcases h with rfl | rfl <;> rfl

/-- A client that is told an id was not answered an error. -/
theorem Makes.not_refused (h : call.Makes r) {e : Error}
    (hpost : net.post (a.url call.rpc.name) call.body s =
      (.ok (Endpoint.answer call.rpc (.error e)), s'))
    (hstatus : e.status ≠ .success) : call.make net a s ≠ (.ok (.id id), s₁) := by
  rw [make_of_error (h.goesTo a) hpost hstatus, h.told]
  exact nofun

/-- A client that is told an id has been given it by the provider. -/
theorem Makes.given (h : call.Makes r)
    (hpost : net.post (a.url call.rpc.name) call.body s =
      (.ok (Endpoint.answer call.rpc (.ok (.id mint))), s'))
    (hmade : call.make net a s = (.ok (.id id), s₁)) : mint = id ∧ s' = s₁ := by
  have hallows : (call.request mint).Allows (.ok (.id mint)) := by
    obtain ⟨mode, hrequest⟩ := h.request mint
    rw [hrequest]
    trivial
  have hseen : Seen (.ok (.id mint)) (.ok (.id mint)) := rfl
  rw [make_of_ok (h.goesTo a) hpost hallows hseen, h.told] at hmade
  cases hmade
  exact ⟨rfl, rfl⟩

end RemoteCall

/-- A configuration comes back from its own text, if its numbers are integers. -/
theorem Dummy.portable_of_parseConfig {config : Option String} {v : Json}
    (h : parseConfig config = .ok v) (hv : v.Whole) : v.Portable := by
  cases config with
  | none =>
    cases h
    exact ⟨.nil, trivial⟩
  | some text =>
    rw [parseConfig] at h
    split at h <;> cases h
    rename_i hread
    exact Json.portable_of_read hread hv

namespace Session

variable {β' ι' ω' : Type} {b' : Behaviour β' ι' ω'}

/-- The dummy backend among others makes an instance for every configuration that it reads. -/
theorem instantiate_beside (b' : Behaviour β' ι' ω') {config : Option String} {v : Json}
    (hconfig : Dummy.parseConfig config = .ok v) (mode : Mode) (w : Dummy.Store × ω') :
    (Dummy.behaviour.beside b').instantiate (.inl ()) mode config w =
      (some (.ok (.inl w.1.configs.size)), ((w.1.add v).2, w.2)) := by
  simp only [Behaviour.beside, Dummy.behaviour, hconfig]
  rfl

/-- **What a client is told an id of has been made**: the collector is in the table of the provider
and its configuration in the store. -/
theorem made {w : Dummy.Store × ω'} {s s₁ : Host (Unit ⊕ β') (Nat ⊕ ι') × (Dummy.Store × ω')}
    (hreached : Reached (Dummy.behaviour.beside b') w s)
    (hfurnished : Furnished s.1 Dummy.backendName (.inl ())) {call : RemoteCall}
    {r : InstantiateRequest} (hcall : call.Makes r) (hbackend : r.backend = Dummy.backendName)
    {v : Json} (hconfig : Dummy.parseConfig r.config = .ok v) {limit : Nat}
    (hsize : call.body.utf8ByteSize ≤ limit) {mint id : CollectorId} {a : Address}
    (hmade : call.make (Endpoint.network (Dummy.behaviour.beside b') limit mint a.baseUrl) a s =
      (.ok (.id id), s₁)) :
    ∃ place status, acts (Dummy.behaviour.beside b') (.inl ()) s
        [.perform place (call.request mint), .tally call.rpc status] = some s₁ ∧
      Kept s₁.1 a.providerId place
        { id, backend := Dummy.backendName, resource := .inl s.2.1.configs.size } ∧
      s₁.2.1.config? s.2.1.configs.size = some v := by
  obtain ⟨host, store, w'⟩ := s
  cases hfind : host.find a.providerId with
  | error e =>
    have hstatus : e.status ≠ .success := by
      rw [Host.find] at hfind
      split at hfind <;> cases hfind
      exact Status.noConfusion
    have hpost := Endpoint.post_missing (Dummy.behaviour.beside b') hcall.received hsize mint a
      hfind (store, w')
    exact absurd hmade (hcall.not_refused hpost hstatus)
  | ok place =>
    have hmem := Host.mem_of_find hfind
    obtain ⟨p, hp⟩ := Host.provider?_isSome (hreached.sound.lt_of_mem hmem)
    obtain ⟨mode, hrequest⟩ := hcall.request mint
    have hpost := Endpoint.post_found (Dummy.behaviour.beside b') hcall.received hsize mint a
      hfind (store, w')
    have hbackend' : p.registry.find? r.backend = some (.inl ()) := by
      rw [hbackend]
      exact hfurnished.provider? hp
    simp only [Host.perform, hp, hrequest] at hpost
    rcases Provider.perform_instantiate r.token mint hbackend'
      (instantiate_beside b' hconfig mode (store, w')) ⟨_, _, rfl⟩ with
      ⟨e, hresult, hstatus⟩ | ⟨t, hinsert, hresult, hprovider, hworld⟩
    · rw [hresult] at hpost
      exact absurd hmade (hcall.not_refused hpost hstatus)
    · rw [hresult, hprovider, hworld] at hpost
      obtain ⟨rfl, rfl⟩ := hcall.given hpost hmade
      refine ⟨place, Endpoint.statusOf call.rpc (.ok (.id mint)), ?_, ⟨hmem, ?_⟩,
        Dummy.Store.config?_add_self store v⟩
      · rw [acts_cons, hrequest, act_perform hp, hprovider, hworld]
        rfl
      · have hplace := (List.getElem?_eq_some_iff.1 (Host.contents_of_provider? hp)).1
        have hcontents := Host.contents_put host place { p with table := t }
        refine ⟨(t.entries, t.closed), ?_, hbackend ▸ Table.mem_of_insert hinsert⟩
        exact hcontents ▸ List.getElem?_set_self hplace

/-- The configuration of a collector that is kept is in the store. -/
theorem Kept.config? {w : Dummy.Store × ω'}
    {s s' : Host (Unit ⊕ β') (Nat ⊕ ι') × (Dummy.Store × ω')}
    (hreached : Reached (Dummy.behaviour.beside b') w s)
    (hpasses : Passes (Dummy.behaviour.beside b') s s') {pid : ProviderId} {place : Nat}
    {c : Collector (Nat ⊕ ι')} (hs' : Kept s'.1 pid place c) {k : Nat} (hc : c.resource = .inl k)
    {v : Json} (hv : s.2.1.config? k = some v) : s'.2.1.config? k = some v := by
  have hhouses := Dummy.houses_beside b'
  obtain ⟨t, ht, hhost, hworld⟩ := hreached
  obtain ⟨es, hhost', hworld'⟩ := hpasses t hhost hworld
  -- What was in the store is there or lost, and that of a collector in a table is not lost.
  have hbecomes : s.2.1.Becomes s'.2.1 := by
    rw [← hworld, ← hworld']
    exact Traffic.becomes_run hhouses t es
  obtain ⟨table, htable, hmem⟩ := hs'.table
  rw [← hhost'] at htable
  obtain ⟨v', -, hv', -⟩ := (ht.run es).config?_of_contents hhouses htable hmem
    (show c.resource.getLeft? = some k by rw [hc]; rfl)
  rw [hworld'] at hv'
  rcases hbecomes.eq_or_none hv with hkept | hlost
  · exact hkept
  · cases hlost.symm.trans hv'

/-- A client that asks a kept collector for its configuration gets it. -/
theorem Kept.getConfig {s : Host (Unit ⊕ β') (Nat ⊕ ι') × (Dummy.Store × ω')} (hsound : s.1.Sound)
    {a : Address} {place : Nat} {c : Collector (Nat ⊕ ι')} (hs : Kept s.1 a.providerId place c)
    {k : Nat} (hc : c.resource = .inl k) {v : Json} (hv : s.2.1.config? k = some v)
    (hportable : v.Portable) (hdepth : v.depth + 2 ≤ maxDepth) {handle : Handle}
    (hcollector : handle.collector = c.id) (htarget : handle.target = some a) {args : Json}
    (hargs : args.Fits) (hargsdepth : args.depth + 1 ≤ maxDepth) {limit : Nat}
    (hsize : (RemoteCall.invoke handle "get_config" args).body.utf8ByteSize ≤ limit)
    (mint : CollectorId) :
    ∃ s', (RemoteCall.invoke handle "get_config" args).make
      (Endpoint.network (Dummy.behaviour.beside b') limit mint a.baseUrl) a s =
        (.ok (.value v), s') := by
  obtain ⟨host, world⟩ := s
  obtain ⟨args', hread⟩ := Json.exists_toJson args hargs (Nat.le_of_succ_le_succ hargsdepth)
  have hreceived : (RemoteCall.invoke handle "get_config" args).Received
      (.invoke handle "get_config" args') := ⟨args', hread, rfl⟩
  -- The provider finds the collector, whose instance answers what the store has.
  obtain ⟨table, htable, hmem⟩ := hs.table
  obtain ⟨p, hp⟩ := Host.provider?_isSome (hsound.lt_of_mem hs.mem)
  obtain rfl := Option.some.inj ((Host.contents_of_provider? hp).symm.trans htable)
  have hfound : p.table.get? handle.collector = some c :=
    Table.get?_eq_some_iff.2 ⟨hmem, hcollector.symm⟩
  have hindex : c.resource.getLeft? = some k := by rw [hc]; rfl
  have hanswer : ((Dummy.behaviour.beside b').invoke c.resource "get_config" args' world).1 =
      some (.ok v) := by
    rw [(Dummy.houses_beside b').answer hindex, hv]
    rfl
  have hpost := Endpoint.post_found (Dummy.behaviour.beside b') hreceived hsize mint a
    (hsound.find hs.mem) world
  simp only [Host.perform, hp, RemoteCall.request, Provider.result_invoke hfound hanswer] at hpost
  have hgoes : (RemoteCall.invoke handle "get_config" args).GoesTo a := htarget
  have hallows : ((RemoteCall.invoke handle "get_config" args).request mint).Allows
      (.ok (.value v)) := trivial
  have hseen : RemoteCall.Seen (.ok (.value v)) (.ok (.value v)) :=
    ⟨v, Codec.reads_free hportable (Nat.le_of_add_le_add_right hdepth), rfl⟩
  exact ⟨_, RemoteCall.make_of_ok hgoes hpost hallows hseen⟩

/-- **A configuration comes back.** A collector of the dummy backend was made over the wire, in any
state that a session leads to, and afterwards nothing ended it. Then who asks for its configuration
over the wire, with whatever arguments a request has room for, gets the value that the text sent
was read as; without a text it is the empty object.

The value must be read back from the answer, in which it stands in two objects: its numbers are
integers, and it leaves room for the two. -/
theorem config_comes_back {w : Dummy.Store × ω'}
    {s s₁ s₂ : Host (Unit ⊕ β') (Nat ⊕ ι') × (Dummy.Store × ω')}
    {before after : List (Operation (Unit ⊕ β'))}
    (hbefore : run (Dummy.behaviour.beside b') (.inl ()) ({}, w) before = some s)
    {call : RemoteCall} {r : InstantiateRequest} (hcall : call.Makes r)
    (hbackend : r.backend = Dummy.backendName) {v : Json}
    (hconfig : Dummy.parseConfig r.config = .ok v) (hwhole : v.Whole)
    (hdepth : v.depth + 2 ≤ maxDepth) {limit : Nat} (hsize : call.body.utf8ByteSize ≤ limit)
    {mint id : CollectorId} {a : Address}
    (hmade : call.make (Endpoint.network (Dummy.behaviour.beside b') limit mint a.baseUrl) a s =
      (.ok (.id id), s₁))
    (hafter : run (Dummy.behaviour.beside b') (.inl ()) s₁ after = some s₂)
    (hspared : Spared (Dummy.behaviour.beside b') (.inl ()) s₁ a.providerId id after)
    {handle : Handle} (hcollector : handle.collector = id) (htarget : handle.target = some a)
    {args : Json} (hargs : args.Fits) (hargsdepth : args.depth + 1 ≤ maxDepth) {limit' : Nat}
    (hsize' : (RemoteCall.invoke handle "get_config" args).body.utf8ByteSize ≤ limit')
    (mint' : CollectorId) :
    (∃ s₃, (RemoteCall.invoke handle "get_config" args).make
      (Endpoint.network (Dummy.behaviour.beside b') limit' mint' a.baseUrl) a s₂ =
        (.ok (.value v), s₃)) ∧
      (r.config = none → v = .object []) := by
  have hreached := reached_run hbefore
  have hfurnished : Furnished s.1 Dummy.backendName (Sum.inl () : Unit ⊕ β') :=
    Furnished.run reached_start nofun hbefore
  obtain ⟨place, status, hacts, hkept, hstored⟩ :=
    made hreached hfurnished hcall hbackend hconfig hsize hmade
  have hreached₁ : Reached (Dummy.behaviour.beside b') w s₁ := hreached.passes (acts_passes hacts)
  have hpasses := run_passes hreached₁ hafter
  have hkept₂ := hkept.run hreached₁ hspared hafter
  have hportable := Dummy.portable_of_parseConfig hconfig hwhole
  refine ⟨hkept₂.getConfig (hreached₁.passes hpasses).sound rfl
    (hkept₂.config? hreached₁ hpasses rfl hstored) hportable hdepth hcollector htarget hargs
    hargsdepth hsize' mint', fun hnone => ?_⟩
  rw [hnone] at hconfig
  cases hconfig
  rfl

/-! ### A host with one provider -/

open Json (nested)
open RemoteCall (origin handle getConfig)
open Traffic (nilId)

/-- Two dummy backends side by side. -/
def twoBackends : Behaviour (Unit ⊕ Unit) (Nat ⊕ Nat) (Dummy.Store × Dummy.Store) :=
  Dummy.behaviour.beside Dummy.behaviour

/-- A provider that has the first of the two. -/
def owner (t : Table (Nat ⊕ Nat)) : Provider (Unit ⊕ Unit) (Nat ⊕ Nat) :=
  { id := 0, token := AdminToken.new none
    registry := { entries := [(Dummy.backendName, .inl ())] }, table := t, poolSize := 16 }

/-- A host with this provider. -/
def lone (t : Table (Nat ⊕ Nat)) : Host (Unit ⊕ Unit) (Nat ⊕ Nat) :=
  { providers := [owner t], attached := [(0, 0)], metrics := { gauges := [(0, t.size)] } }

/-- A table with one collector. -/
def holding : Table (Nat ⊕ Nat) where
  entries := [{ id := nilId, backend := Dummy.backendName, resource := .inl 0 }]
  gauge := some 1
  inserted := 1

/-- The network with the endpoint of this host, whose bodies have at most `limit` bytes. -/
def wire (limit : Nat) : Network (Host (Unit ⊕ Unit) (Nat ⊕ Nat) × (Dummy.Store × Dummy.Store)) :=
  Endpoint.network twoBackends limit nilId origin.baseUrl

/-- Asks for a collector with a configuration. -/
def configure (config : Option String) : RemoteCall :=
  .create { backend := Dummy.backendName, config, token := none }

/-- The host with a collector that was made over the wire. -/
def configuredWith (v : Json) : Host (Unit ⊕ Unit) (Nat ⊕ Nat) × (Dummy.Store × Dummy.Store) :=
  (Endpoint.record (lone holding) .createCollector .success, ({ configs := #[some v] }, {}))

theorem run_lone :
    run twoBackends (.inl ()) ({}, ({}, {})) [.register {}] =
      some (lone (.withGauge (some 0)), ({}, {})) := rfl

/-- A collector is made over the wire with every configuration that the backend reads. -/
theorem make_configure {config : Option String} {v : Json}
    (hconfig : Dummy.parseConfig config = .ok v) {limit : Nat}
    (hsize : (configure config).body.utf8ByteSize ≤ limit) :
    (configure config).make (wire limit) origin (lone (.withGauge (some 0)), ({}, {})) =
      (.ok (.id nilId), configuredWith v) := by
  have hreceived : (configure config).Received (configure config) := rfl
  have hgoes : (configure config).GoesTo origin := trivial
  have hfind : (lone (.withGauge (some 0))).find origin.providerId = .ok 0 := rfl
  have hfound : (lone (.withGauge (some 0))).provider? 0 = some (owner (.withGauge (some 0))) := rfl
  have hcheck : (owner (.withGauge (some 0))).token.check none = true := rfl
  have hbackend : (owner (.withGauge (some 0))).registry.find? Dummy.backendName = some (.inl ()) :=
    rfl
  have hmade := instantiate_beside Dummy.behaviour hconfig .create ({}, {})
  have hinsert : (Table.withGauge (some 0)).insert
      { id := nilId, backend := Dummy.backendName, resource := Sum.inl 0 } = .ok holding := rfl
  obtain ⟨hresult, hprovider, hworld⟩ :=
    Provider.perform_entered hcheck rfl hbackend hmade hinsert
  have hpost := Endpoint.post_found twoBackends hreceived hsize nilId origin hfind ({}, {})
  simp only [Host.perform, hfound, configure, RemoteCall.request] at hpost
  rw [twoBackends, hresult, hprovider, hworld] at hpost
  have hallows : ((configure config).request nilId).Allows (.ok (.id nilId)) := trivial
  have hseen : RemoteCall.Seen (.ok (.id nilId)) (.ok (.id nilId)) := rfl
  exact RemoteCall.make_of_ok hgoes hpost hallows hseen

theorem size_configure : (configure none).body.utf8ByteSize ≤ defaultBodyLimit := by
  decide +kernel

/-- The empty configuration comes back, although another provider was registered in between. -/
theorem config_comes_back_empty :
    ∃ s s', run twoBackends (.inl ()) (configuredWith (.object []))
        [.register { providerId := 7 }] = some s ∧
      getConfig.make (wire defaultBodyLimit) origin s = (.ok (.value (.object [])), s') := by
  obtain ⟨s, hs⟩ : ∃ s, run twoBackends (.inl ()) (configuredWith (.object []))
      [.register { providerId := 7 }] = some s := ⟨_, rfl⟩
  have hconfig : Dummy.parseConfig none = .ok (.object []) := rfl
  have hwhole : (Json.object []).Whole := trivial
  have hmakes : (configure none).Makes
      { backend := Dummy.backendName, config := none, token := none } := .inl rfl
  have hspared : Spared twoBackends (.inl ()) (configuredWith (.object [])) origin.providerId nilId
      [.register { providerId := 7 }] := ⟨not_false, fun _ _ => trivial⟩
  have hargs : Json.null.Fits := trivial
  have hmade := make_configure hconfig size_configure
  have hcollector : handle.collector = nilId := rfl
  obtain ⟨⟨s', hanswer⟩, -⟩ := config_comes_back run_lone hmakes rfl hconfig hwhole (by decide)
    size_configure hmade hs hspared hcollector rfl hargs (by decide) RemoteCall.size_getConfig nilId
  exact ⟨s, s', hs, hanswer⟩

/-- A configuration that nests too deep for the answer does not come back. -/
theorem getConfig_deep {v : Json} (hv : v.Portable) (hdeep : 125 < v.depth) :
    (getConfig.make (wire defaultBodyLimit) origin (configuredWith v)).1 =
      .error (.transport .undecodable) := by
  have hfind : (configuredWith v).1.find origin.providerId = .ok 0 := rfl
  have hfound : (configuredWith v).1.provider? 0 = some (owner holding) := rfl
  have hcollector : (owner holding).table.get? nilId =
      some { id := nilId, backend := Dummy.backendName, resource := Sum.inl 0 } := rfl
  have hanswer : (twoBackends.invoke (.inl 0) "get_config" .null (configuredWith v).2).1 =
      some (.ok v) := rfl
  have hpost := Endpoint.post_found twoBackends RemoteCall.portable_getConfig.received
    RemoteCall.size_getConfig nilId origin hfind (configuredWith v).2
  have hrequest : getConfig.request nilId = .invoke nilId "get_config" .null := rfl
  simp only [Host.perform, hfound, hrequest, Provider.result_invoke hcollector hanswer] at hpost
  rw [getConfig, wire, RemoteCall.make_of_deep rfl hpost hv hdeep]

/-- A client whose call the endpoint does not take is told so. -/
theorem invoke_refused {operation : String} {args v : Json} {limit : Nat} {e : Error}
    (hbody : Endpoint.body limit .invoke nilId
      (Endpoint.posted (Rpc.path origin.providerId Rpc.invoke.name)
        (RemoteCall.invoke handle operation args).body) = .error e) (hstatus : e.status ≠ .success) :
    ((RemoteCall.invoke handle operation args).make (wire limit) origin (configuredWith v)).1 =
      .error (.remote e.status e.message) := by
  have hfind : (configuredWith v).1.find origin.providerId = .ok 0 := rfl
  have hgoes : (RemoteCall.invoke handle operation args).GoesTo origin := rfl
  have hpost := Endpoint.post_refused twoBackends (.invoke handle operation args) origin hbody
    hfind (configuredWith v).2
  exact congrArg Prod.fst (RemoteCall.make_of_error hgoes hpost hstatus)

theorem size_configure_lt : (configure none).body.utf8ByteSize < getConfig.body.utf8ByteSize := by
  decide +kernel

/-- **Not every configuration comes back.** A collector is made over the wire with a configuration
that the backend reads and no answer has room for, and nobody gets it back over the wire. And with
arguments that no request has room for, not even the empty configuration is answered, be they too
deep for the reader or too long for an endpoint that has just room for the configuration. -/
theorem config_lost :
    let create := configure (some (nested 126).render)
    let ask := RemoteCall.invoke handle "get_config" (nested 127)
    let size := (configure none).body.utf8ByteSize
    (Dummy.parseConfig (some (nested 126).render) = .ok (nested 126) ∧ (nested 126).Whole ∧
      ∃ s s₁, run twoBackends (.inl ()) ({}, ({}, {})) [.register {}] = some s ∧
        create.make (wire create.body.utf8ByteSize) origin s = (.ok (.id nilId), s₁) ∧
        (getConfig.make (wire defaultBodyLimit) origin s₁).1 =
          .error (.transport .undecodable)) ∧
    (∃ s s₁, run twoBackends (.inl ()) ({}, ({}, {})) [.register {}] = some s ∧
      (configure none).make (wire defaultBodyLimit) origin s = (.ok (.id nilId), s₁) ∧
      (ask.make (wire ask.body.utf8ByteSize) origin s₁).1 =
        .error (.remote Endpoint.unreadable.status Endpoint.unreadable.message)) ∧
    ∃ s s₁, run twoBackends (.inl ()) ({}, ({}, {})) [.register {}] = some s ∧
      (configure none).make (wire size) origin s = (.ok (.id nilId), s₁) ∧
      (getConfig.make (wire size) origin s₁).1 =
        .error (.remote Endpoint.oversized.status Endpoint.oversized.message) := by
  intro create ask size
  have hdeep : 125 < (nested 126).depth := by rw [Json.depth_nested]; decide
  have hdepth : (nested 126).depth ≤ maxDepth := by rw [Json.depth_nested]; decide
  have hdeeper : 126 < (nested 127).depth := by rw [Json.depth_nested]; decide
  have hconfig := Dummy.parseConfig_render (Json.portable_nested 126) hdepth
  have hmake : create.make (wire create.body.utf8ByteSize) origin
      (lone (.withGauge (some 0)), ({}, {})) = (.ok (.id nilId), configuredWith (nested 126)) :=
    make_configure hconfig (Nat.le_refl _)
  have hmake' : ∀ limit, (configure none).body.utf8ByteSize ≤ limit →
      (configure none).make (wire limit) origin (lone (.withGauge (some 0)), ({}, {})) =
        (.ok (.id nilId), configuredWith (.object [])) :=
    fun _ hsize => make_configure rfl hsize
  have hunreadable := Endpoint.body_unreadable (Json.portable_nested 127) hdeeper
    (Nat.le_refl ask.body.utf8ByteSize) nilId (Rpc.path origin.providerId Rpc.invoke.name)
  have hoversized := Endpoint.body_oversized size_configure_lt .invoke nilId
    (Rpc.path origin.providerId Rpc.invoke.name)
  exact ⟨⟨hconfig, Json.whole_nested 126, _, _, run_lone, hmake,
      getConfig_deep (Json.portable_nested 126) hdeep⟩,
    ⟨_, _, run_lone, hmake' _ size_configure, invoke_refused hunreadable Status.noConfusion⟩,
    _, _, run_lone, hmake' _ (Nat.le_refl _), invoke_refused hoversized Status.noConfusion⟩

end Session
end Collectors
