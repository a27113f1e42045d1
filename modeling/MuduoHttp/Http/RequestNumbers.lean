import MuduoHttp.Http.NumberedServer

/-!
# The numbers follow the requests

In every run the numbered server runs as the server does, and the numbers
stand beside the functors of the main loop and the requests at php-fpm that
they belong to.  Every number is that of a request that was dispatched.
-/

namespace MuduoHttp

open Support FastCgi CgiServer

namespace CgiServer

variable {oneLoop : Bool} {s : CgiServer}

theorem serverCgi_eq (s : CgiServer) (f : CgiFunctor) :
    (s.serverCgi f).mainFunctors = s.mainFunctors ∧
      (s.serverCgi f).outstanding.map Outstanding.issuer =
        if s.cgiConn = some true then
          some f.conn :: s.outstanding.map Outstanding.issuer
        else s.outstanding.map Outstanding.issuer := by
  simp only [CgiServer.serverCgi, allocate]
  split <;> split <;> simp_all

/-- Neither the functors of the main loop nor the requests at php-fpm. -/
theorem handleContent_eq (write : WriteResult) (s : CgiServer)
    (m : CgiMessage) :
    (handleContent oneLoop write s m).mainFunctors = s.mainFunctors ∧
      (handleContent oneLoop write s m).outstanding = s.outstanding := by
  unfold handleContent
  split
  · exact ⟨rfl, rfl⟩
  split
  · exact ⟨rfl, rfl⟩
  split
  · exact ⟨rfl, rfl⟩
  · split
    · exact ⟨rfl, rfl⟩
    · exact ⟨rfl, rfl⟩

theorem clients_of_setClient {c d : ConnId} {client : Client}
    (h : (s.setClient c client).clients d = none) : s.clients d = none := by
  by_cases hd : d = c
  · subst hd
    rw [clients_setClient_self] at h
    cases h
  · rwa [clients_setClient_of_ne hd] at h

theorem clients_handleContent_eq_none {write : WriteResult} {m : CgiMessage}
    {c : ConnId} (h : (handleContent oneLoop write s m).clients c = none) :
    s.clients c = none := by
  unfold handleContent at h
  split at h
  · exact h
  split at h
  · exact h
  split at h
  · exact h
  · split at h
    · exact h
    · exact clients_of_setClient h

/-- A record that answers the `i`-th request: its content is handled, and the
end of the request takes it off the list. -/
theorem recordStep_eq (oneLoop : Bool) (hrunning : s.crashed = false)
    (hup : s.cgiConn = some true) {i : ℕ} {q : Outstanding}
    (hq : s.outstanding[i]? = some q) {r : CgiRecord}
    (hid : r.header.requestId = q.wireId) (write : WriteResult) :
    recordStep oneLoop s i r write =
      { if r.message.content = [] then s
        else handleContent oneLoop write s r.message with
        outstanding :=
          if r.header.type = FCGI_END_REQUEST then s.outstanding.eraseIdx i
          else s.outstanding } := by
  have hkept : (if r.message.content = [] then s
      else handleContent oneLoop write s r.message).outstanding =
        s.outstanding := by
    split
    · rfl
    · exact (handleContent_eq write s r.message).2
  have hhandle : handleMessage oneLoop write s r.message =
      if r.message.content = [] then s
      else handleContent oneLoop write s r.message := by
    simp only [handleMessage, hrunning, Bool.false_eq_true, false_or]
  simp only [recordStep, hup, hq, if_pos hid, onCGIMessage_record, hhandle]
  split
  · rw [hkept]
  · rw [← hkept]

end CgiServer

namespace NumberedServer

variable {oneLoop : Bool} {httpCallback : HttpCallback} {s : NumberedServer}
  {c : ConnId} {a : CgiServer.Action}

/-- The numbers stand beside what they number. -/
structure Follows (s : NumberedServer) : Prop where
  functors : s.functors.map RequestNo.conn =
    s.server.mainFunctors.map CgiFunctor.conn
  outstanding : s.outstanding.map (Option.map RequestNo.conn) =
    s.server.outstanding.map Outstanding.issuer

theorem answersRequest_iff {i : ℕ} {r : CgiRecord} :
    s.answersRequest i r = true ↔ s.server.cgiConn = some true ∧
      ∃ q, s.server.outstanding[i]? = some q ∧
        r.header.requestId = q.wireId := by
  unfold answersRequest
  rw [Bool.and_eq_true, decide_eq_true_iff, Option.any_eq_true]
  simp

theorem recordStep_of_not {i : ℕ} {r : CgiRecord}
    (h : ¬ s.answersRequest i r = true) (write : WriteResult) :
    recordStep oneLoop s.server i r write = s.server := by
  unfold CgiServer.recordStep
  split
  next q hup hq =>
    exact if_neg fun hid => h (answersRequest_iff.mpr ⟨hup, q, hq, hid⟩)
  · rfl

/-- The request at php-fpm was issued by the connection of its number. -/
theorem Follows.issuer (h : s.Follows) {i : ℕ} {q : Outstanding}
    (hq : s.server.outstanding[i]? = some q) :
    ∃ number, s.outstanding[i]? = some number ∧
      number.map RequestNo.conn = q.issuer := by
  have hi := congrArg (fun l => l[i]?) h.outstanding
  simp only [List.getElem?_map, hq, Option.map_some] at hi
  exact Option.map_eq_some_iff.mp hi

/-- What holds after every kind of step holds after a step. -/
theorem Follows.step_cases {P : NumberedServer → Prop} (h : s.Follows)
    (hidle : P { s with broken := s.brokenAfter a })
    (haccept : ∀ c close, s.server.clients c = none →
      P { s with
        server := s.server.setClient c
          { session := Session.newConnection oneLoop
            http := ⟨HttpContext.fresh close, []⟩ }
        broken := s.brokenAfter a })
    (hfunctor : ∀ f functors n numbers,
      s.server.mainFunctors = f :: functors → s.functors = n :: numbers →
        n.conn = f.conn →
          P { ({ s with functors := numbers } : NumberedServer).issue n with
            server := { s.server with mainFunctors := functors }.serverCgi f
            broken := s.brokenAfter a })
    (hup : P { s with
      outstanding := [none]
      server := s.server.cgiConnected
      broken := s.brokenAfter a })
    (hdown : P { s with
      outstanding := []
      server := { s.server with cgiConn := some false, outstanding := [] }
      broken := s.brokenAfter a })
    (hrecord : ∀ i r write, a = .record i r write →
      s.server.crashed = false → s.answersRequest i r = true →
        P { s.followRecord i r with
          server := recordStep oneLoop s.server i r write
          broken := s.brokenAfter a })
    (heffect : ∀ c client write effect todo, a = .effect c write →
      s.server.lock c = some client → client.todo = effect :: todo →
        P { s.followEffect oneLoop c effect with
          server := effectStep oneLoop s.server c { client with todo := todo }
            write effect
          broken := s.brokenAfter a })
    (hnet : ∀ c client b, a = .net c b → s.server.lock c = some client →
      P { s with
        server := s.server.setClient c
          { client with session := netStep oneLoop client.session b }
        broken := s.brokenAfter a })
    (hcheckTimer : ∀ c client write, s.server.lock c = some client →
      P { s with
        server := s.server.setClient c (checkTimer oneLoop client write)
        broken := s.brokenAfter a })
    (hsame : ∀ c client client', s.server.lock c = some client →
      client'.session = client.session →
        P { s with
          server := s.server.setClient c client'
          broken := s.brokenAfter a })
    (hcrash : P { s with
      server := { s.server with crashed := true }
      broken := s.brokenAfter a }) :
    P (s.step oneLoop httpCallback a) := by
  by_cases hcrashed : s.server.crashed = true
  · simp only [step, CgiServer.step, if_pos hcrashed]
    exact hidle
  have hrunning : s.server.crashed = false := eq_false_of_ne_true hcrashed
  simp only [step, CgiServer.step, if_neg hcrashed]
  cases a with
  | accept c close =>
      dsimp only [follow]
      split
      · exact hidle
      next hnew => exact haccept c close hnew
  | mainFunctor =>
      have hlists := h.functors
      dsimp only [follow]
      cases hserver : s.server.mainFunctors with
      | nil =>
          rw [hserver] at hlists
          rw [List.map_eq_nil_iff.mp hlists]
          exact hidle
      | cons f functors =>
          rw [hserver] at hlists
          obtain ⟨n, numbers, hnumbers, hn, -⟩ :=
            List.map_eq_cons_iff.mp hlists
          simp only [hnumbers]
          exact hfunctor f functors n numbers hserver hnumbers hn
  | cgiUp =>
      dsimp only [follow]
      split
      · exact hidle
      · exact hup
  | cgiDown =>
      dsimp only [follow]
      split
      · exact hdown
      · exact hidle
  | record i r write =>
      dsimp only [follow]
      split
      next hanswers => exact hrecord i r write rfl hrunning hanswers
      next hnot =>
        rw [recordStep_of_not hnot]
        exact hidle
  | net c b =>
      dsimp only [follow, withClient]
      split
      · exact hidle
      next client hlock => exact hnet c client b rfl hlock
  | message c garbage chunk =>
      dsimp only [follow, withClient]
      split
      · exact hidle
      next client hlock =>
        unfold clientStep
        dsimp only
        split
        · split
          · exact hsame c client _ hlock rfl
          · exact hcrash
        · exact hidle
  | effect c write =>
      dsimp only [follow, withClient]
      cases hlock : s.server.lock c with
      | none => exact hidle
      | some client =>
          unfold clientStep
          dsimp only
          cases htodo : client.todo with
          | nil => exact hidle
          | cons effect todo =>
              exact heffect c client write effect todo rfl hlock htodo
  | checkTimer c write =>
      dsimp only [follow, withClient]
      split
      · exact hidle
      next client hlock => exact hcheckTimer c client write hlock
  | release c =>
      dsimp only [follow, withClient]
      split
      · exact hidle
      next client hlock =>
        unfold clientStep
        dsimp only
        split
        · exact hsame c client _ hlock rfl
        · exact hidle

/-! ## The numbers stand beside what they number -/

/-- Only the functors and the requests at php-fpm count. -/
theorem Follows.congr (h : s.Follows) {s' : NumberedServer}
    (hfunctors : s'.functors = s.functors)
    (houtstanding : s'.outstanding = s.outstanding)
    (hmain : s'.server.mainFunctors = s.server.mainFunctors)
    (hphp : s'.server.outstanding = s.server.outstanding) : s'.Follows where
  functors := by
    rw [hfunctors, hmain]
    exact h.functors
  outstanding := by
    rw [houtstanding, hphp]
    exact h.outstanding

/-- The request that `server_cgi` sends is numbered as its functor was. -/
theorem Follows.serverCgi (server : CgiServer) {n : RequestNo}
    {f : CgiFunctor} (hconn : n.conn = f.conn)
    (hcgi : server.cgiConn = s.server.cgiConn)
    (hfunctors : s.functors.map RequestNo.conn =
      server.mainFunctors.map CgiFunctor.conn)
    (houtstanding : s.outstanding.map (Option.map RequestNo.conn) =
      server.outstanding.map Outstanding.issuer) (broken : ConnId → Bool) :
    NumberedServer.Follows
      { s.issue n with server := server.serverCgi f, broken := broken } := by
  obtain ⟨hmain, hphp⟩ := serverCgi_eq server f
  unfold issue
  by_cases hup : s.server.cgiConn = some true
  · rw [if_pos (hcgi.trans hup)] at hphp
    simp only [if_pos hup]
    refine ⟨hfunctors.trans (congrArg _ hmain).symm, ?_⟩
    dsimp only
    rw [hphp, List.map_cons, houtstanding, Option.map_some, hconn]
  · rw [if_neg fun h => hup (hcgi.symm.trans h)] at hphp
    simp only [if_neg hup]
    exact ⟨hfunctors.trans (congrArg _ hmain).symm,
      houtstanding.trans hphp.symm⟩

theorem functors_followRecord (s : NumberedServer) (i : ℕ) (r : CgiRecord) :
    (s.followRecord i r).functors = s.functors ∧
      (s.followRecord i r).outstanding =
        if r.header.type = FCGI_END_REQUEST then s.outstanding.eraseIdx i
        else s.outstanding := by
  have hcontent : ∀ n content,
      (s.followContent n content).functors = s.functors ∧
        (s.followContent n content).outstanding = s.outstanding := by
    intro n content
    unfold followContent
    split
    · exact ⟨rfl, rfl⟩
    · split
      · exact ⟨rfl, rfl⟩
      · exact ⟨rfl, rfl⟩
  have hanswered : ∀ s' : NumberedServer,
      s'.functors = s.functors ∧ s'.outstanding = s.outstanding →
        (if r.header.type = FCGI_END_REQUEST then
          { s' with outstanding := s'.outstanding.eraseIdx i }
        else s').functors = s.functors ∧
        (if r.header.type = FCGI_END_REQUEST then
          { s' with outstanding := s'.outstanding.eraseIdx i }
        else s').outstanding =
          if r.header.type = FCGI_END_REQUEST then s.outstanding.eraseIdx i
          else s.outstanding := by
    rintro s' ⟨hfunctors, houtstanding⟩
    split
    · exact ⟨hfunctors, by rw [← houtstanding]⟩
    · exact ⟨hfunctors, houtstanding⟩
  refine hanswered _ ?_
  split
  · split
    · exact ⟨rfl, rfl⟩
    · exact hcontent _ _
  · exact ⟨rfl, rfl⟩

theorem Follows.recordStep (h : s.Follows)
    (hrunning : s.server.crashed = false) {i : ℕ} {r : CgiRecord}
    (hanswers : s.answersRequest i r = true) (write : WriteResult)
    (broken : ConnId → Bool) :
    NumberedServer.Follows
      { s.followRecord i r with
        server := recordStep oneLoop s.server i r write
        broken := broken } := by
  obtain ⟨hup, q, hq, hid⟩ := answersRequest_iff.mp hanswers
  obtain ⟨hfunctors, houtstanding⟩ := functors_followRecord s i r
  have hmain : (if r.message.content = [] then s.server
      else handleContent oneLoop write s.server r.message).mainFunctors =
        s.server.mainFunctors := by
    split
    · rfl
    · exact (handleContent_eq write s.server r.message).1
  rw [recordStep_eq oneLoop hrunning hup hq hid write]
  constructor
  · dsimp only
    rw [hfunctors, hmain]
    exact h.functors
  · dsimp only
    rw [houtstanding]
    split
    · rw [← List.eraseIdx_map, ← List.eraseIdx_map, h.outstanding]
    · exact h.outstanding

theorem Follows.effectStep (h : s.Follows) (client : Client)
    (write : WriteResult) (effect : Effect) (broken : ConnId → Bool) :
    NumberedServer.Follows
      { s.followEffect oneLoop c effect with
        server := effectStep oneLoop s.server c client write effect
        broken := broken } := by
  cases effect with
  | send data => exact h.congr rfl rfl rfl rfl
  | shutdown => exact h.congr rfl rfl rfl rfl
  | serverCgi request reqid =>
      cases oneLoop with
      | true =>
          exact Follows.serverCgi (s := s.dispatch c none)
            (s.server.setClient c client) (n := s.next c) rfl rfl
            h.functors h.outstanding broken
      | false =>
          refine ⟨?_, h.outstanding⟩
          have hmain : (s.functors ++ [s.next c]).map RequestNo.conn =
              (s.server.mainFunctors ++ [CgiFunctor.mk request reqid c]).map
                CgiFunctor.conn := by
            rw [List.map_append, List.map_append, h.functors]
            rfl
          exact hmain

theorem Follows.step (h : s.Follows) (a : CgiServer.Action) :
    (s.step oneLoop httpCallback a).Follows := by
  apply h.step_cases (P := NumberedServer.Follows)
  · exact h.congr rfl rfl rfl rfl
  · intro c close _
    exact h.congr rfl rfl rfl rfl
  · intro f functors n numbers hmain hnumbers hconn
    have hfunctors := h.functors
    rw [hmain, hnumbers] at hfunctors
    exact Follows.serverCgi (s := { s with functors := numbers })
      { s.server with mainFunctors := functors } hconn rfl
      (List.cons.inj hfunctors).2 h.outstanding _
  · exact ⟨h.functors, rfl⟩
  · exact ⟨h.functors, rfl⟩
  · intro i r write _ hrunning hanswers
    exact h.recordStep hrunning hanswers write _
  · intro c client write effect todo _ _ _
    exact h.effectStep _ write effect _
  · intro c client b _ _
    exact h.congr rfl rfl rfl rfl
  · intro c client write _
    exact h.congr rfl rfl rfl rfl
  · intro c client client' _ _
    exact h.congr rfl rfl rfl rfl
  · exact h.congr rfl rfl rfl rfl

theorem follows_init : NumberedServer.Follows {} where
  functors := rfl
  outstanding := rfl

/-! ## The requests that are known -/

/-- The request is a cgi request that php-fpm has not finished. -/
def Underway (s : NumberedServer) (n : RequestNo) : Prop :=
  n ∈ s.functors ∨ some n ∈ s.outstanding

/-- A request that is underway was dispatched, and a request is dispatched only
on a connection that was accepted. -/
structure Known (s : NumberedServer) : Prop where
  underway : ∀ n, s.Underway n → n.number < (s.responses n.conn).length
  accepted : ∀ c, s.server.clients c = none → s.responses c = []

theorem known_init : NumberedServer.Known {} where
  underway n h := by
    rcases h with h | h
    · cases h
    · cases h
  accepted _ _ := rfl

/-- No request is underway that was not, and no response is lost. -/
theorem Known.of_underway (h : s.Known) {s' : NumberedServer}
    (hunderway : ∀ n, s'.Underway n → s.Underway n)
    (hlength : ∀ c, (s'.responses c).length = (s.responses c).length)
    (hclients : ∀ c, s'.server.clients c = none → s.server.clients c = none) :
    s'.Known where
  underway n hn := by
    rw [hlength]
    exact h.underway n (hunderway n hn)
  accepted c hc := by
    rw [← List.length_eq_zero_iff, hlength, h.accepted c (hclients c hc),
      List.length_nil]

theorem underway_issue {n n' : RequestNo} (h : (s.issue n).Underway n') :
    s.Underway n' ∨ n' = n := by
  unfold issue at h
  split at h
  · rcases h with h | h
    · exact .inl (.inl h)
    · rcases List.mem_cons.mp h with hnew | h
      · exact .inr (Option.some.inj hnew)
      · exact .inl (.inr h)
  · exact .inl h

theorem responses_issue (s : NumberedServer) (n : RequestNo) :
    (s.issue n).responses = s.responses := by
  unfold issue
  split
  · rfl
  · rfl

theorem length_responses_followRecord (s : NumberedServer) (i : ℕ)
    (r : CgiRecord) (c : ConnId) :
    ((s.followRecord i r).responses c).length = (s.responses c).length := by
  have hcontent : ∀ n content,
      ((s.followContent n content).responses c).length =
        (s.responses c).length := by
    intro n content
    unfold followContent
    split
    · rfl
    · split
      · rfl
      · unfold answer
        by_cases hc : c = n.conn
        · simp [hc]
        · simp [hc]
  unfold followRecord
  dsimp only
  split
  · split
    · split
      · rfl
      · exact hcontent _ _
    · rfl
  · split
    · split
      · rfl
      · exact hcontent _ _
    · rfl

/-- A request is dispatched, and may be underway from then on. -/
theorem Known.dispatch (h : s.Known) {s' : NumberedServer}
    (response : Option Bytes)
    (hresponses : s'.responses = (s.dispatch c response).responses)
    (hunderway : ∀ n, s'.Underway n → s.Underway n ∨ n = s.next c)
    (hclients : ∀ d, s'.server.clients d = none →
      d ≠ c ∧ s.server.clients d = none) : s'.Known where
  underway n hn := by
    rw [hresponses, NumberedServer.dispatch]
    rcases hunderway n hn with hold | rfl
    · have hlt := h.underway n hold
      by_cases hc : n.conn = c
      · subst hc
        simp only [Function.update_self, List.length_append]
        omega
      · simpa [hc] using hlt
    · simp [next]
  accepted d hd := by
    obtain ⟨hne, hnone⟩ := hclients d hd
    rw [hresponses, NumberedServer.dispatch]
    simpa [hne] using h.accepted d hnone

theorem Known.effectStep (h : s.Known) (client : Client)
    (write : WriteResult) (effect : Effect) (broken : ConnId → Bool) :
    NumberedServer.Known
      { s.followEffect oneLoop c effect with
        server := effectStep oneLoop s.server c client write effect
        broken := broken } := by
  have hset : ∀ (client : Client) d,
      (s.server.setClient c client).clients d = none →
        d ≠ c ∧ s.server.clients d = none := by
    intro client d hd
    refine ⟨?_, clients_of_setClient hd⟩
    rintro rfl
    rw [clients_setClient_self] at hd
    cases hd
  cases effect with
  | send data => exact h.dispatch _ rfl (fun _ => .inl) (hset _)
  | shutdown =>
      exact h.of_underway (fun _ => id) (fun _ => rfl)
        fun _ => clients_of_setClient
  | serverCgi request reqid =>
      cases oneLoop with
      | true =>
          refine h.dispatch none (responses_issue _ _)
            (fun n hn => underway_issue (s := s.dispatch c none) hn) ?_
          intro d hd
          have hclients := clients_serverCgi (s.server.setClient c client)
            ⟨request, reqid, c⟩
          exact hset client d ((congrFun hclients d).symm.trans hd)
      | false =>
          refine h.dispatch none rfl ?_ (hset client)
          rintro n (hn | hn)
          · rcases List.mem_append.mp hn with hold | hnew
            · exact .inl (.inl hold)
            · exact .inr (List.mem_singleton.mp hnew)
          · exact .inl (.inr hn)

theorem Known.recordStep (h : s.Known) (hrunning : s.server.crashed = false)
    {i : ℕ} {r : CgiRecord} (hanswers : s.answersRequest i r = true)
    (write : WriteResult) (broken : ConnId → Bool) :
    NumberedServer.Known
      { s.followRecord i r with
        server := recordStep oneLoop s.server i r write
        broken := broken } := by
  obtain ⟨hup, q, hq, hid⟩ := answersRequest_iff.mp hanswers
  obtain ⟨hfunctors, houtstanding⟩ := functors_followRecord s i r
  refine h.of_underway ?_ (length_responses_followRecord s i r) ?_
  · rintro n (hn | hn)
    · exact .inl (hfunctors ▸ hn)
    · refine .inr ?_
      dsimp only at hn
      rw [houtstanding] at hn
      split at hn
      · exact List.mem_of_mem_eraseIdx hn
      · exact hn
  · intro c hc
    rw [recordStep_eq oneLoop hrunning hup hq hid write] at hc
    dsimp only at hc
    split at hc
    · exact hc
    · exact clients_handleContent_eq_none hc

theorem Known.step (h : s.Known) (hfollows : s.Follows)
    (a : CgiServer.Action) : (s.step oneLoop httpCallback a).Known := by
  apply hfollows.step_cases (P := NumberedServer.Known)
  · exact h.of_underway (fun _ => id) (fun _ => rfl) fun _ => id
  · intro c close _
    exact h.of_underway (fun _ => id) (fun _ => rfl)
      fun _ => clients_of_setClient
  · intro f functors n numbers _ hnumbers _
    have hclients :=
      clients_serverCgi { s.server with mainFunctors := functors } f
    refine h.of_underway ?_ (fun c => ?_) ?_
    · intro n' hn'
      rcases underway_issue (s := { s with functors := numbers }) hn' with
        hold | rfl
      · refine hold.imp_left fun hmem => ?_
        rw [hnumbers]
        exact .tail _ hmem
      · refine .inl ?_
        rw [hnumbers]
        exact .head _
    · exact congrArg List.length (congrFun
        (responses_issue { s with functors := numbers } n) c)
    · exact fun c hc => (congrFun hclients c).symm.trans hc
  · refine h.of_underway ?_ (fun _ => rfl) fun _ => id
    rintro n (hn | hn)
    · exact .inl hn
    · cases List.mem_singleton.mp hn
  · refine h.of_underway ?_ (fun _ => rfl) fun _ => id
    rintro n (hn | hn)
    · exact .inl hn
    · cases hn
  · intro i r write _ hrunning hanswers
    exact h.recordStep hrunning hanswers write _
  · intro c client write effect todo _ _ _
    exact h.effectStep _ write effect _
  · intro c client b _ _
    exact h.of_underway (fun _ => id) (fun _ => rfl)
      fun _ => clients_of_setClient
  · intro c client write _
    exact h.of_underway (fun _ => id) (fun _ => rfl)
      fun _ => clients_of_setClient
  · intro c client client' _ _
    exact h.of_underway (fun _ => id) (fun _ => rfl)
      fun _ => clients_of_setClient
  · exact h.of_underway (fun _ => id) (fun _ => rfl) fun _ => id

end NumberedServer

/-- The numbered server runs as the server does. -/
theorem server_run (oneLoop : Bool) (httpCallback : HttpCallback)
    (actions : List CgiServer.Action) :
    (run (NumberedServer.step oneLoop httpCallback) {} actions).server =
      run (CgiServer.step oneLoop httpCallback) {} actions := by
  have hall : EveryStep (NumberedServer.step oneLoop httpCallback)
      (fun _ _ => True) {} actions :=
    everyStep_of_forall (fun _ _ => trivial) _ _
  exact run_simulation (CgiServer.step oneLoop httpCallback)
    (fun s server => s.server = server)
    (fun s server a h _ => by rw [← h]; rfl) rfl hall

/-- In every run the numbers stand beside the functors and the requests that
they number. -/
theorem follows_run (oneLoop : Bool) (httpCallback : HttpCallback)
    (actions : List CgiServer.Action) :
    (run (NumberedServer.step oneLoop httpCallback) {} actions).Follows :=
  run_invariant_of_forall NumberedServer.Follows (fun _ a hs => hs.step a)
    NumberedServer.follows_init actions

end MuduoHttp
