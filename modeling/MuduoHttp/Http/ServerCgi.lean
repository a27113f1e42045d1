import Mathlib.Data.List.Dedup
import MuduoHttp.Http.CgiRouting

/-!
# The executions of `server_cgi`

`server_cgi` runs as a functor of the main loop, or at once when the
connection lives there.  It uses `CGIConn_` as it finds it: a null pointer
before php-fpm is connected for the first time, and a connection that may be
down afterwards, when it drops the request and says nothing to its client.

It gives every request an id of its own, because the id that the context should
remember is never set.
-/

namespace MuduoHttp

open Support FastCgi CgiServer

namespace CgiServer

variable {oneLoop : Bool} {httpCallback : HttpCallback}
variable {s : CgiServer} {a : Action} {f : CgiFunctor}

/-- The call of `server_cgi` that a step makes, if it makes one. -/
def executes (oneLoop : Bool) (s : CgiServer) (a : Action) :
    Option CgiFunctor :=
  if s.crashed then none
  else
    match a with
    | .mainFunctor => s.mainFunctors.head?
    | .effect c _ =>
        match (s.lock c).map Client.todo with
        | some (.serverCgi request reqid :: _) =>
            if oneLoop then some ⟨request, reqid, c⟩ else none
        | _ => none
    | _ => none

/-- The state in which a step runs `server_cgi`: the call has been taken from
where it waited. -/
structure Taken (s t : CgiServer) : Prop where
  cgiConn : t.cgiConn = s.cgiConn
  outstanding : t.outstanding = s.outstanding
  reqCgiId : t.reqCgiId = s.reqCgiId
  reqCgiConnMap : t.reqCgiConnMap = s.reqCgiConnMap
  sessions : ∀ c,
    (t.clients c).map (·.session) = (s.clients c).map (·.session)

theorem taken_setClient {c : ConnId} {client client' : Client}
    (hlock : s.lock c = some client)
    (hsession : client'.session = client.session) :
    Taken s (s.setClient c client') where
  cgiConn := rfl
  outstanding := rfl
  reqCgiId := rfl
  reqCgiConnMap := rfl
  sessions d := by
    by_cases hdc : d = c
    · subst hdc
      have hclient := (lock_eq_some_iff.mp hlock).1
      rw [clients_setClient_self, hclient, Option.map_some, Option.map_some,
        hsession]
    · rw [clients_setClient_of_ne hdc]

/-- A step that runs `server_cgi` does nothing else. -/
theorem step_of_executes (httpCallback : HttpCallback)
    (h : executes oneLoop s a = some f) :
    ∃ t, Taken s t ∧ step oneLoop httpCallback s a = t.serverCgi f := by
  unfold executes at h
  split at h
  · cases h
  next hrunning =>
    cases a with
    | mainFunctor =>
        obtain ⟨functors, hfunctors⟩ := List.head?_eq_some_iff.mp h
        refine ⟨{ s with mainFunctors := functors },
          ⟨rfl, rfl, rfl, rfl, fun _ => rfl⟩, ?_⟩
        simp [step, hrunning, hfunctors]
    | effect c write =>
        dsimp only at h
        split at h
        next request reqid todo htodo =>
          obtain ⟨client, hlock, hclient⟩ := Option.map_eq_some_iff.mp htodo
          cases oneLoop with
          | false => cases h
          | true =>
              cases h
              refine ⟨s.setClient c { client with todo := todo },
                taken_setClient hlock rfl, ?_⟩
              simp [step, hrunning, withClient_of_lock hlock, clientStep,
                hclient, effectStep]
        · cases h
    | accept _ _ => cases h
    | net _ _ => cases h
    | message _ _ _ => cases h
    | checkTimer _ _ => cases h
    | release _ => cases h
    | cgiUp => cases h
    | cgiDown => cases h
    | record _ _ _ => cases h

/-! ## Requests that cannot be forwarded -/

/-- The output of a connection: what is written, what waits in the buffer, and
what is on its way to the loop. -/
def outputOf (session : Session) : Bytes :=
  session.conn.written ++ session.conn.outputBuffer ++
    session.ioFunctors.flatMap fun
      | .sendInLoop message => message
      | _ => []

def outputLength (s : CgiServer) (c : ConnId) : ℕ :=
  (((s.clients c).map (·.session)).map fun session =>
    (outputOf session).length).getD 0

/-- The request is sent to php-fpm. -/
def Forwarded (s s' : CgiServer) (f : CgiFunctor) : Prop :=
  ∃ q, s'.outstanding = q :: s.outstanding ∧ q.issuer = some f.conn

/-- Something is sent on the connection of the request. -/
def Answered (s s' : CgiServer) (f : CgiFunctor) : Prop :=
  s.outputLength f.conn < s'.outputLength f.conn

/-- The call does not use a null pointer, and the request is forwarded or
answered. -/
structure Serves (s s' : CgiServer) (f : CgiFunctor) : Prop where
  pointer : s.cgiConn ≠ none
  handled : Forwarded s s' f ∨ Answered s s' f

/-- If the step runs `server_cgi`, it serves the request. -/
def ServesRequest (oneLoop : Bool) (httpCallback : HttpCallback)
    (s : CgiServer) (a : Action) : Prop :=
  ∀ f, executes oneLoop s a = some f →
    Serves s (step oneLoop httpCallback s a) f

/-- If the step runs `server_cgi`, php-fpm is connected. -/
def FindsPhp (oneLoop : Bool) (s : CgiServer) (a : Action) : Prop :=
  ∀ f, executes oneLoop s a = some f → s.cgiConn = some true

/-- `server_cgi` sends nothing on the connection of the request. -/
theorem not_answered (h : executes oneLoop s a = some f) :
    ¬ Answered s (step oneLoop httpCallback s a) f := by
  obtain ⟨t, ht, hstep⟩ := step_of_executes httpCallback h
  rw [Answered, hstep, outputLength, outputLength, clients_serverCgi,
    ht.sessions]
  exact lt_irrefl _

/-- The request is forwarded when php-fpm is connected, and only then. -/
theorem forwarded_iff (h : executes oneLoop s a = some f) :
    Forwarded s (step oneLoop httpCallback s a) f ↔
      s.cgiConn = some true := by
  obtain ⟨t, ht, hstep⟩ := step_of_executes httpCallback h
  rw [Forwarded, hstep, ← ht.cgiConn, ← ht.outstanding]
  simp only [CgiServer.serverCgi, allocate]
  split <;> split <;> simp_all

theorem servesRequest_iff :
    ServesRequest oneLoop httpCallback s a ↔ FindsPhp oneLoop s a := by
  refine forall₂_congr fun f hf => ?_
  constructor
  · intro hserves
    exact (forwarded_iff hf).mp (hserves.handled.resolve_right (not_answered hf))
  · intro hphp
    refine ⟨?_, .inl ((forwarded_iff hf).mpr hphp)⟩
    rw [hphp]
    exact Option.some_ne_none true

end CgiServer

/-- In every run, the calls of `server_cgi` use no null pointer and forward or
answer their requests exactly when each of them finds php-fpm connected. -/
theorem servesRequests_iff (oneLoop : Bool) (httpCallback : HttpCallback)
    (actions : List CgiServer.Action) :
    EveryStep (step oneLoop httpCallback) (ServesRequest oneLoop httpCallback)
        {} actions ↔
      EveryStep (step oneLoop httpCallback) (FindsPhp oneLoop) {} actions :=
  everyStep_iff _ _ (fun _ => True) (fun _ _ _ _ => trivial)
    (fun _ _ _ => servesRequest_iff) trivial actions

/-- A cgi request that comes before php-fpm is connected. -/
def requestBeforePhp : List CgiServer.Action :=
  [.accept 0 false, .message 0 0 cgiRequest.bytes, .effect 0 (.wrote 0)]

/-- `server_cgi` uses the null pointer. -/
theorem not_servesRequests_beforePhp :
    ¬ ∀ (oneLoop : Bool) (httpCallback : HttpCallback)
      (actions : List CgiServer.Action),
      EveryStep (step oneLoop httpCallback)
        (ServesRequest oneLoop httpCallback) {} actions := by
  intro h
  obtain ⟨-, -, hserves, -⟩ := h true (fun _ r => r) requestBeforePhp
  have hcall : (executes true
      (run (step true fun _ r => r) {} (requestBeforePhp.take 2))
      (.effect 0 (.wrote 0))).isSome = true := by
    decide
  obtain ⟨f, hf⟩ := Option.isSome_iff_exists.mp hcall
  exact (hserves f hf).pointer rfl

/-! ## Ids of the connections -/

namespace CgiServer

variable {oneLoop : Bool} {httpCallback : HttpCallback}
variable {s t : CgiServer} {a : Action} {f : CgiFunctor}

/-- Every cgi request that waits asks for a new id. -/
structure AsksNewIds (s : CgiServer) : Prop where
  clients : ∀ c client, s.clients c = some client → FirstRequests client
  functors : ∀ f ∈ s.mainFunctors, f.reqid = 0

namespace AsksNewIds

theorem setClient (h : s.AsksNewIds) {c : ConnId} {client : Client}
    (hfirst : FirstRequests client) : (s.setClient c client).AsksNewIds where
  clients d client' hd := by
    by_cases hdc : d = c
    · subst hdc
      rw [clients_setClient_self] at hd
      cases hd
      exact hfirst
    · rw [clients_setClient_of_ne hdc] at hd
      exact h.clients d client' hd
  functors := h.functors

/-- Only the clients and the functors count. -/
theorem of_eq (h : s.AsksNewIds) (hclients : t.clients = s.clients)
    (hfunctors : t.mainFunctors ⊆ s.mainFunctors) : t.AsksNewIds where
  clients := by
    rw [hclients]
    exact h.clients
  functors f hf := h.functors f (hfunctors hf)

theorem serverCgi (h : s.AsksNewIds) {f : CgiFunctor} :
    (s.serverCgi f).AsksNewIds := by
  refine h.of_eq (clients_serverCgi s f) ?_
  simp only [CgiServer.serverCgi, allocate]
  split <;> split <;> exact List.Subset.refl _

theorem handleMessage (h : s.AsksNewIds) (write : WriteResult)
    (m : CgiMessage) : (handleMessage oneLoop write s m).AsksNewIds := by
  unfold CgiServer.handleMessage handleContent
  split
  · exact h
  split
  · exact h.of_eq rfl (List.Subset.refl _)
  split
  · exact h.of_eq rfl (List.Subset.refl _)
  split
  · exact h.of_eq rfl (List.Subset.refl _)
  next client hlock =>
    split
    · exact h.of_eq rfl (List.Subset.refl _)
    next response _ =>
      have hfirst := h.clients _ client (lock_eq_some_iff.mp hlock).1
      refine AsksNewIds.of_eq (h.setClient ?_) rfl (List.Subset.refl _)
      exact hfirst

theorem clientStep (h : s.AsksNewIds) {c : ConnId} {client : Client}
    (hlock : s.lock c = some client) (a : Action) :
    (clientStep oneLoop httpCallback s c client a).AsksNewIds := by
  have hfirst := h.clients c client (lock_eq_some_iff.mp hlock).1
  cases a with
  | net _ a => exact h.setClient hfirst
  | message _ garbage chunk =>
      simp only [CgiServer.clientStep]
      split
      · split
        next http requests effects hcall =>
          exact h.setClient (HttpServer.onMessage_cgiRequestId hcall hfirst.1)
        · exact h.of_eq rfl (List.Subset.refl _)
      · exact h
  | effect _ write =>
      simp only [CgiServer.clientStep]
      split
      · exact h
      next effect todo htodo =>
        have hrest : FirstRequests { client with todo := todo } :=
          ⟨hfirst.1, fun request reqid hmem =>
            hfirst.2 request reqid (by rw [htodo]; exact .tail _ hmem)⟩
        cases effect with
        | send data => exact h.setClient hrest
        | shutdown => exact h.setClient hrest
        | serverCgi request reqid =>
            have hreqid : reqid = 0 :=
              hfirst.2 request reqid (by rw [htodo]; exact .head _)
            have hset := h.setClient (c := c) hrest
            cases oneLoop with
            | true => exact hset.serverCgi
            | false =>
                refine ⟨hset.clients, ?_⟩
                intro f hf
                rcases List.mem_append.mp hf with hf | hf
                · exact hset.functors f hf
                · rw [List.mem_singleton.mp hf]
                  exact hreqid
  | checkTimer _ write =>
      refine h.setClient ?_
      rw [CgiServer.checkTimer]
      split <;> exact hfirst
  | release _ =>
      simp only [CgiServer.clientStep]
      split
      · exact h.setClient hfirst
      · exact h
  | accept _ _ => exact h
  | mainFunctor => exact h
  | cgiUp => exact h
  | cgiDown => exact h
  | record _ _ _ => exact h

theorem step (h : s.AsksNewIds) (a : Action) :
    (step oneLoop httpCallback s a).AsksNewIds := by
  apply step_cases
  · exact h
  · intro c close _
    exact h.setClient ⟨rfl, fun _ _ hmem => by cases hmem⟩
  · intro f functors hfunctors
    have hrest : functors ⊆ s.mainFunctors := by
      rw [hfunctors]
      exact List.subset_cons_self f functors
    have htaken : AsksNewIds { s with mainFunctors := functors } :=
      h.of_eq rfl hrest
    exact htaken.serverCgi
  · exact h.of_eq rfl (List.Subset.refl _)
  · exact h.of_eq rfl (List.Subset.refl _)
  · intro i r write _
    unfold recordStep
    split
    · split
      · rw [onCGIMessage_record]
        dsimp only
        split
        · exact (h.handleMessage _ _).of_eq rfl (List.Subset.refl _)
        · exact h.handleMessage _ _
      · exact h
    · exact h
  · intro c client _ hlock
    exact h.clientStep hlock a

theorem init : AsksNewIds {} where
  clients _ _ h := by cases h
  functors _ h := by cases h

/-- No call reuses an id. -/
theorem executes (h : s.AsksNewIds) (hf : executes oneLoop s a = some f) :
    f.reqid = 0 := by
  unfold CgiServer.executes at hf
  split at hf
  · cases hf
  · split at hf
    · exact h.functors f (List.mem_of_mem_head? hf)
    · split at hf
      next c _ _ request reqid todo htodo =>
        obtain ⟨client, hlock, hclient⟩ := Option.map_eq_some_iff.mp htodo
        split at hf
        · cases hf
          refine (h.clients c client (lock_eq_some_iff.mp hlock).1).2 request _ ?_
          rw [hclient]
          exact .head _
        · cases hf
      · cases hf
    · cases hf

end AsksNewIds

/-- No id is taken, and one entry of the map may be erased. -/
structure KeepsIds (s t : CgiServer) : Prop where
  reqCgiId : t.reqCgiId = s.reqCgiId
  reqCgiConnMap : t.reqCgiConnMap = s.reqCgiConnMap ∨
    ∃ id, t.reqCgiConnMap = s.reqCgiConnMap.erase id

theorem keepsIds_of_eq (hid : t.reqCgiId = s.reqCgiId)
    (hmap : t.reqCgiConnMap = s.reqCgiConnMap) : KeepsIds s t :=
  ⟨hid, .inl hmap⟩

theorem keepsIds_handleMessage (write : WriteResult) (m : CgiMessage) :
    KeepsIds s (handleMessage oneLoop write s m) := by
  unfold CgiServer.handleMessage handleContent
  split
  · exact keepsIds_of_eq rfl rfl
  split
  · exact keepsIds_of_eq rfl rfl
  split
  · exact keepsIds_of_eq rfl rfl
  split
  · exact ⟨rfl, .inr ⟨_, rfl⟩⟩
  · split
    · exact keepsIds_of_eq rfl rfl
    · exact keepsIds_of_eq rfl rfl

theorem keepsIds_recordStep (i : ℕ) (r : CgiRecord) (write : WriteResult) :
    KeepsIds s (recordStep oneLoop s i r write) := by
  unfold recordStep
  split
  next q _ _ =>
    split
    · have hmessage :
          KeepsIds s (handleMessage oneLoop write s r.message) :=
        keepsIds_handleMessage write r.message
      rw [onCGIMessage_record]
      dsimp only
      split
      · exact ⟨hmessage.reqCgiId, hmessage.reqCgiConnMap⟩
      · exact hmessage
    · exact keepsIds_of_eq rfl rfl
  · exact keepsIds_of_eq rfl rfl

theorem keepsIds_clientStep {c : ConnId} {client : Client}
    (hlock : s.lock c = some client) (ha : a.connection = some c)
    (hrunning : s.crashed = false) (h : executes oneLoop s a = none) :
    KeepsIds s (clientStep oneLoop httpCallback s c client a) := by
  cases a with
  | effect d write =>
      cases ha
      simp only [clientStep]
      split
      · exact keepsIds_of_eq rfl rfl
      next effect todo htodo =>
        cases effect with
        | send data => exact keepsIds_of_eq rfl rfl
        | shutdown => exact keepsIds_of_eq rfl rfl
        | serverCgi request reqid =>
            simp [executes, hrunning, hlock, htodo] at h
            simp only [effectStep, h]
            exact keepsIds_of_eq rfl rfl
  | message d garbage chunk =>
      simp only [clientStep]
      split
      · split
        · exact keepsIds_of_eq rfl rfl
        · exact keepsIds_of_eq rfl rfl
      · exact keepsIds_of_eq rfl rfl
  | release d =>
      simp only [clientStep]
      split
      · exact keepsIds_of_eq rfl rfl
      · exact keepsIds_of_eq rfl rfl
  | net d a => exact keepsIds_of_eq rfl rfl
  | checkTimer d write => exact keepsIds_of_eq rfl rfl
  | accept d close => cases ha
  | mainFunctor => cases ha
  | cgiUp => cases ha
  | cgiDown => cases ha
  | record i r write => cases ha

/-- A step that does not run `server_cgi` takes no id. -/
theorem keepsIds_step (h : executes oneLoop s a = none) :
    KeepsIds s (step oneLoop httpCallback s a) := by
  by_cases hcrashed : s.crashed = true
  · simp only [step, if_pos hcrashed]
    exact keepsIds_of_eq rfl rfl
  rw [Bool.not_eq_true] at hcrashed
  have hlocked : ∀ c, a.connection = some c →
      KeepsIds s (s.withClient c fun client =>
        clientStep oneLoop httpCallback s c client a) := by
    intro c hc
    unfold withClient
    split
    · exact keepsIds_of_eq rfl rfl
    next client hlock => exact keepsIds_clientStep hlock hc hcrashed h
  simp only [step, hcrashed, Bool.false_eq_true, if_false]
  cases a with
  | accept c close =>
      dsimp only
      split
      · exact keepsIds_of_eq rfl rfl
      · exact keepsIds_of_eq rfl rfl
  | mainFunctor =>
      simp only [executes, hcrashed, Bool.false_eq_true, if_false,
        List.head?_eq_none_iff] at h
      rw [h]
      exact keepsIds_of_eq rfl rfl
  | cgiUp =>
      dsimp only
      split
      · exact keepsIds_of_eq rfl rfl
      · exact keepsIds_of_eq rfl rfl
  | cgiDown =>
      dsimp only
      split
      · exact keepsIds_of_eq rfl rfl
      · exact keepsIds_of_eq rfl rfl
  | record i r write => exact keepsIds_recordStep i r write
  | net c a => exact hlocked c rfl
  | message c garbage chunk => exact hlocked c rfl
  | effect c write => exact hlocked c rfl
  | checkTimer c write => exact hlocked c rfl
  | release c => exact hlocked c rfl

end CgiServer

/-- The server, with the connections whose cgi requests it has processed. -/
structure Issuance where
  server : CgiServer := {}
  issuers : List ConnId := []

namespace Issuance

def step (oneLoop : Bool) (httpCallback : HttpCallback) (s : Issuance)
    (a : CgiServer.Action) : Issuance where
  server := s.server.step oneLoop httpCallback a
  issuers :=
    s.issuers ++ ((executes oneLoop s.server a).map CgiFunctor.conn).toList

/-- A step on the first cgi request of a connection allocates an id, a step on
a later one does not, and the map holds one entry for a connection at most, so
that it has no more entries than connections have issued cgi requests. -/
structure OneId (oneLoop : Bool) (httpCallback : HttpCallback) (s : Issuance)
    (a : CgiServer.Action) : Prop where
  first : ∀ f, executes oneLoop s.server a = some f → f.conn ∉ s.issuers →
    (s.step oneLoop httpCallback a).server.reqCgiId =
        incrementAndGet s.server.reqCgiId ∧
      (s.step oneLoop httpCallback a).server.reqCgiConnMap[
        incrementAndGet s.server.reqCgiId]? = some f.conn
  later : ∀ f, executes oneLoop s.server a = some f → f.conn ∈ s.issuers →
    (s.step oneLoop httpCallback a).server.reqCgiId = s.server.reqCgiId
  unique : ∀ (id id' : ℤ) (c : ConnId),
    (s.step oneLoop httpCallback a).server.reqCgiConnMap[id]? = some c →
    (s.step oneLoop httpCallback a).server.reqCgiConnMap[id']? = some c →
    id = id'
  bound : (s.step oneLoop httpCallback a).server.reqCgiConnMap.size ≤
    (s.step oneLoop httpCallback a).issuers.dedup.length

/-- The step runs `server_cgi` for the first cgi request of a connection, if at
all. -/
def FirstOnly (oneLoop : Bool) (s : Issuance) (a : CgiServer.Action) : Prop :=
  ∀ f, executes oneLoop s.server a = some f → f.conn ∉ s.issuers

/-- Every connection has issued one cgi request at most, and the entries of
the map are theirs. -/
structure IssuedOnce (s : Issuance) : Prop where
  asksNewIds : s.server.AsksNewIds
  nodup : s.issuers.Nodup
  issued : ∀ (id : ℤ) c, s.server.reqCgiConnMap[id]? = some c → c ∈ s.issuers
  unique : ∀ (id id' : ℤ) c, s.server.reqCgiConnMap[id]? = some c →
    s.server.reqCgiConnMap[id']? = some c → id = id'
  bound : s.server.reqCgiConnMap.size ≤ s.issuers.length

variable {oneLoop : Bool} {httpCallback : HttpCallback}
variable {s : Issuance} {a : CgiServer.Action} {f : CgiFunctor}

/-- A step on a cgi request takes a new id for its connection. -/
theorem step_allocates (httpCallback : HttpCallback)
    (h : s.server.AsksNewIds)
    (hf : executes oneLoop s.server a = some f) :
    (s.step oneLoop httpCallback a).server.reqCgiId =
        incrementAndGet s.server.reqCgiId ∧
      (s.step oneLoop httpCallback a).server.reqCgiConnMap =
        s.server.reqCgiConnMap.insert (incrementAndGet s.server.reqCgiId)
          f.conn ∧
      (s.step oneLoop httpCallback a).issuers = s.issuers ++ [f.conn] := by
  obtain ⟨t, ht, hstep⟩ := step_of_executes httpCallback hf
  have hreqid : f.reqid = 0 := h.executes hf
  have hissuers : (s.step oneLoop httpCallback a).issuers =
      s.issuers ++ [f.conn] := by
    simp [Issuance.step, hf]
  refine ⟨?_, ?_, hissuers⟩
  · simp only [Issuance.step, hstep, CgiServer.serverCgi, allocate, hreqid,
      if_true, ← ht.reqCgiId]
    split <;> rfl
  · simp only [Issuance.step, hstep, CgiServer.serverCgi, allocate, hreqid,
      if_true, ← ht.reqCgiId, ← ht.reqCgiConnMap]
    split <;> rfl

/-- A first request adds an entry for a connection that had none. -/
theorem IssuedOnce.step_executes (h : s.IssuedOnce)
    (hf : executes oneLoop s.server a = some f) (hfirst : f.conn ∉ s.issuers) :
    (s.step oneLoop httpCallback a).IssuedOnce := by
  obtain ⟨-, hmap, hissuers⟩ :=
    step_allocates httpCallback h.asksNewIds hf
  have hentry : ∀ (id : ℤ) c,
      (s.step oneLoop httpCallback a).server.reqCgiConnMap[id]? = some c →
        (id = incrementAndGet s.server.reqCgiId ∧ c = f.conn) ∨
          s.server.reqCgiConnMap[id]? = some c := by
    intro id c hid
    rw [hmap, Std.ExtTreeMap.getElem?_insert] at hid
    split at hid
    next heq =>
      cases hid
      exact .inl ⟨(Std.LawfulEqOrd.eq_of_compare heq).symm, rfl⟩
    · exact .inr hid
  refine ⟨h.asksNewIds.step a, ?_, ?_, ?_, ?_⟩
  · rw [hissuers]
    exact h.nodup.append (List.nodup_singleton _)
      (List.disjoint_singleton.mpr hfirst)
  · intro id c hid
    rw [hissuers]
    rcases hentry id c hid with ⟨-, rfl⟩ | hold
    · exact List.mem_append_right _ (List.mem_singleton_self _)
    · exact List.mem_append_left _ (h.issued id c hold)
  · intro id id' c hid hid'
    rcases hentry id c hid with ⟨rfl, rfl⟩ | hold
    · rcases hentry id' _ hid' with ⟨rfl, -⟩ | hold'
      · rfl
      · exact absurd (h.issued id' _ hold') hfirst
    · rcases hentry id' c hid' with ⟨-, rfl⟩ | hold'
      · exact absurd (h.issued id _ hold) hfirst
      · exact h.unique id id' c hold hold'
  · rw [hmap, hissuers, List.length_append, List.length_singleton]
    exact Std.ExtTreeMap.size_insert_le.trans (Nat.add_le_add_right h.bound 1)

/-- Any other step adds nothing. -/
theorem IssuedOnce.step_not_executes (h : s.IssuedOnce)
    (hf : executes oneLoop s.server a = none) :
    (s.step oneLoop httpCallback a).IssuedOnce := by
  have hkeeps : KeepsIds s.server (s.step oneLoop httpCallback a).server :=
    keepsIds_step hf
  have hissuers : (s.step oneLoop httpCallback a).issuers = s.issuers := by
    simp [Issuance.step, hf]
  have hentry : ∀ (id : ℤ) c,
      (s.step oneLoop httpCallback a).server.reqCgiConnMap[id]? = some c →
        s.server.reqCgiConnMap[id]? = some c := by
    intro id c hid
    rcases hkeeps.reqCgiConnMap with hmap | ⟨erased, hmap⟩
    · rwa [hmap] at hid
    · rw [hmap, Std.ExtTreeMap.getElem?_erase] at hid
      split at hid
      · cases hid
      · exact hid
  refine ⟨h.asksNewIds.step a, ?_, ?_, ?_, ?_⟩
  · rw [hissuers]
    exact h.nodup
  · intro id c hid
    rw [hissuers]
    exact h.issued id c (hentry id c hid)
  · intro id id' c hid hid'
    exact h.unique id id' c (hentry id c hid) (hentry id' c hid')
  · rw [hissuers]
    rcases hkeeps.reqCgiConnMap with hmap | ⟨erased, hmap⟩
    · rw [hmap]
      exact h.bound
    · rw [hmap]
      exact Std.ExtTreeMap.size_erase_le.trans h.bound

theorem IssuedOnce.step (h : s.IssuedOnce) (ha : FirstOnly oneLoop s a) :
    (s.step oneLoop httpCallback a).IssuedOnce := by
  cases hf : executes oneLoop s.server a with
  | none => exact h.step_not_executes hf
  | some f => exact h.step_executes hf (ha f hf)

theorem issuedOnce_init : IssuedOnce {} where
  asksNewIds := .init
  nodup := List.nodup_nil
  issued id c h := by simp at h
  unique id id' c h := by simp at h
  bound := by simp

theorem incrementAndGet_ne (n : ℤ) : incrementAndGet n ≠ n := by
  rw [incrementAndGet, Int.bmod_def]
  omega

/-- A step gives its connection its one id exactly when it is not on a second
request of a connection. -/
theorem IssuedOnce.oneId_iff (h : s.IssuedOnce) :
    OneId oneLoop httpCallback s a ↔ FirstOnly oneLoop s a := by
  constructor
  · intro hone f hf hagain
    have hkept := hone.later f hf hagain
    rw [(step_allocates httpCallback h.asksNewIds hf).1] at hkept
    exact incrementAndGet_ne _ hkept
  · intro ha
    have hnext : (s.step oneLoop httpCallback a).IssuedOnce := h.step ha
    refine ⟨?_, ?_, hnext.unique, ?_⟩
    · intro f hf _
      obtain ⟨hid, hmap, -⟩ :=
        step_allocates httpCallback h.asksNewIds hf
      rw [hmap]
      exact ⟨hid, Std.ExtTreeMap.getElem?_insert_self⟩
    · exact fun f hf hagain => absurd hagain (ha f hf)
    · rw [hnext.nodup.dedup]
      exact hnext.bound

end Issuance

/-- In every run, every connection keeps one id and one entry of the map
exactly when no connection issues a second cgi request. -/
theorem oneId_run_iff (oneLoop : Bool) (httpCallback : HttpCallback)
    (actions : List CgiServer.Action) :
    EveryStep (Issuance.step oneLoop httpCallback)
        (Issuance.OneId oneLoop httpCallback) {} actions ↔
      EveryStep (Issuance.step oneLoop httpCallback)
        (Issuance.FirstOnly oneLoop) {} actions :=
  everyStep_iff _ _ Issuance.IssuedOnce
    (fun _ _ h hone => h.step (h.oneId_iff.mp hone))
    (fun _ _ h => h.oneId_iff) Issuance.issuedOnce_init actions

/-- Two cgi requests of one connection. -/
def twoCgiRequests : List CgiServer.Action :=
  [.accept 0 false, .cgiUp, .message 0 0 cgiRequest.bytes,
    .effect 0 (.wrote 0), .message 0 0 cgiRequest.bytes, .effect 0 (.wrote 0)]

/-- The second request takes a second id. -/
theorem not_oneId_twoCgiRequests :
    ¬ ∀ (oneLoop : Bool) (httpCallback : HttpCallback)
      (actions : List CgiServer.Action),
      EveryStep (Issuance.step oneLoop httpCallback)
        (Issuance.OneId oneLoop httpCallback) {} actions := by
  intro h
  obtain ⟨-, -, -, -, -, hlast, -⟩ := h true (fun _ r => r) twoCgiRequests
  have hunique := hlast.unique 1 2 0 (by decide) (by decide)
  revert hunique
  decide

end MuduoHttp
