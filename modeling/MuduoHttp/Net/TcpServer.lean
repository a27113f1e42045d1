import MuduoHttp.Net.Session
import MuduoHttp.Support.Transition
import Mathlib.Data.Int.CardIntervalMod
import Std.Data.ExtTreeMap.Lemmas

/-!
# The server and its connections

`TcpServer` gives every new connection a name of its own and a loop of its
pool in turn, and keeps it in a map under that name until
`removeConnectionInLoop` erases it.  A step of the server accepts a connection
or is a step of one connection.  Each connection goes its own way, as if it
were the only one, and the map holds exactly those that were not erased.
-/

namespace MuduoHttp

open Support

/-- `EventLoopThreadPool` after `start`, by the number of its loops. -/
structure EventLoopThreadPool where
  loops : ℕ
  next_ : ℕ := 0

/-- The loop for a new connection: none is the base loop. -/
def EventLoopThreadPool.getNextLoop (pool : EventLoopThreadPool) :
    Option ℕ × EventLoopThreadPool :=
  if pool.loops = 0 then (none, pool)
  else
    let next := pool.next_ + 1
    (some pool.next_,
      { pool with next_ := if pool.loops ≤ next then 0 else next })

def Teardown.isErased : Teardown → Bool
  | .erased _ => true
  | _ => false

namespace Session

/-- How often `removeConnectionInLoop` was called for the connection. -/
def erasures (s : Session) : ℕ := s.log.countP Teardown.isErased

/-- What a step does to the place of the connection in the map. -/
def Erases (s s' : Session) : Prop :=
  (s'.erasures = s.erasures ∧ s'.entries = s.entries) ∨
    (s'.erasures = s.erasures + 1 ∧ s'.entries = 0)

variable {s : Session} {oneLoop : Bool}

theorem erases_of_eq {s' : Session} (hlog : s'.log = s.log)
    (hentries : s'.entries = s.entries) : s.Erases s' :=
  .inl ⟨by rw [erasures, hlog, erasures], hentries⟩

theorem erases_removeConnectionInLoop (s : Session) :
    s.Erases s.removeConnectionInLoop := by
  right
  simp [erasures, Teardown.isErased, removeConnectionInLoop, queueInLoop,
    record]

theorem erases_handleClose (oneLoop : Bool) (s : Session) :
    s.Erases (s.handleClose oneLoop) := by
  cases oneLoop with
  | true =>
      right
      simp [erasures, Teardown.isErased, handleClose, removeConnection,
        removeConnectionInLoop, queueInLoop, record]
  | false =>
      left
      simp [erasures, Teardown.isErased, handleClose, removeConnection, record]

theorem entries_forceClose (s : Session) :
    s.forceClose.entries = s.entries := by
  unfold forceClose
  split <;> rfl

theorem entries_call (s : Session) (inLoop : Bool) (write : WriteResult)
    (c : Call) : (s.call inLoop write c).entries = s.entries := by
  cases c with
  | send message => cases inLoop <;> simp only [call] <;> split <;> rfl
  | shutdown => cases inLoop <;> simp only [call] <;> split <;> rfl
  | forceClose => exact entries_forceClose s
  | forceCloseWithDelay =>
      cases inLoop <;> simp only [call] <;> split <;> rfl

theorem erases_step (oneLoop : Bool) (s : Session) (a : Action) :
    s.Erases (step oneLoop s a) := by
  cases a with
  | poll revents =>
      simp only [step]
      split <;> exact erases_of_eq rfl rfl
  | handler read write =>
      simp only [step]
      split
      · exact erases_of_eq rfl rfl
      next handler handlers _ =>
        cases handler with
        | handleClose =>
            exact erases_handleClose oneLoop { s with handlers := handlers }
        | handleError => exact erases_of_eq rfl rfl
        | handleRead =>
            cases read with
            | eof =>
                exact erases_handleClose oneLoop { s with handlers := handlers }
            | data => exact erases_of_eq rfl rfl
            | error => exact erases_of_eq rfl rfl
        | handleWrite => exact erases_of_eq rfl rfl
  | ioFunctor write =>
      simp only [step]
      split
      next functor functors _ _ =>
        cases functor with
        | connectEstablished =>
            left
            simp [runIoFunctor, erasures, Teardown.isErased,
              connectEstablished, record]
        | sendInLoop message => exact erases_of_eq rfl rfl
        | shutdownInLoop => exact erases_of_eq rfl rfl
        | addTimerInLoop => exact erases_of_eq rfl rfl
        | forceCloseInLoop =>
            simp only [runIoFunctor, forceCloseInLoop]
            split
            · exact erases_handleClose oneLoop { s with ioFunctors := functors }
            · exact erases_of_eq rfl rfl
        | connectDestroyed =>
            left
            simp [runIoFunctor, erasures, Teardown.isErased, connectDestroyed,
              record]
      · exact erases_of_eq rfl rfl
  | acceptorFunctor =>
      simp only [step]
      split
      · exact erases_of_eq rfl rfl
      · exact erases_removeConnectionInLoop
          { s with removals := s.removals - 1 }
  | timer =>
      simp only [step]
      split
      · exact erases_of_eq rfl rfl
      · exact erases_of_eq (log_forceClose _) (entries_forceClose _)
  | call inLoop write c =>
      exact erases_of_eq (log_call ..) (entries_call ..)

end Session

/-- A connection that was accepted, with its name and its loop. -/
structure Accepted where
  name : Bytes
  loop : Option ℕ
  session : Session

/-- `connections_` maps the names to the numbers of the connections, counted
from zero in the order in which they were accepted. -/
structure TcpServer where
  name_ : Bytes
  threadPool_ : EventLoopThreadPool
  nextConnId_ : ℕ := 1
  connections_ : Std.ExtTreeMap Bytes ℕ compare := ∅
  accepted : List Accepted := []

namespace TcpServer

/-- `name_` followed by `"#%d"`. -/
def connName (name : Bytes) (id : ℕ) : Bytes :=
  name ++ ascii "#" ++ ascii (toString id)

def newConnection (s : TcpServer) : TcpServer :=
  let name := connName s.name_ s.nextConnId_
  let (loop, pool) := s.threadPool_.getNextLoop
  { s with
    nextConnId_ := s.nextConnId_ + 1
    threadPool_ := pool
    connections_ := s.connections_.insert name s.accepted.length
    accepted :=
      s.accepted ++ [⟨name, loop, Session.newConnection loop.isNone⟩] }

inductive Action
  | newConnection
  | connection (c : ℕ) (a : Session.Action)

/-- A step of a connection in which `removeConnectionInLoop` is called erases
its name from the map. -/
def step (s : TcpServer) : Action → TcpServer
  | .newConnection => s.newConnection
  | .connection c a =>
      match s.accepted[c]? with
      | none => s
      | some conn =>
          let session := Session.step conn.loop.isNone conn.session a
          { s with
            accepted := s.accepted.set c { conn with session := session }
            connections_ :=
              if session.erasures = conn.session.erasures then s.connections_
              else s.connections_.erase conn.name }

/-- The step of a connection that was accepted. -/
def moves (s : TcpServer) : Action → List (ℕ × Session.Action)
  | .newConnection => []
  | .connection c a => if c < s.accepted.length then [(c, a)] else []

def Action.isNew : Action → Bool
  | .newConnection => true
  | .connection _ _ => false

/-- The steps of the connection `c` among those of all connections. -/
def own (c : ℕ) (past : List (ℕ × Session.Action)) : List Session.Action :=
  past.filterMap fun (d, a) => if d = c then some a else none

/-! ## Names -/

theorem connName_inj {name : Bytes} {id id' : ℕ}
    (h : connName name id = connName name id') : id = id' := by
  have hdigits := List.append_cancel_left h
  rw [← decimal_toString id, hdigits, decimal_toString]

theorem name_step (s : TcpServer) (a : Action) :
    (s.step a).name_ = s.name_ := by
  cases a with
  | newConnection => rfl
  | connection c a =>
      simp only [step]
      split <;> rfl

/-! ## Runs -/

/-- The server with `n` loops in its pool. -/
def start (name : Bytes) (n : ℕ) : TcpServer where
  name_ := name
  threadPool_ := { loops := n }

/-- The loop of the `c`-th connection. -/
def loopOf (n c : ℕ) : Option ℕ := if n = 0 then none else some (c % n)

/-- What holds of the `c`-th connection after its own steps. -/
structure Kept (s : TcpServer) (n c : ℕ) (actions : List Session.Action)
    (conn : Accepted) : Prop where
  name : conn.name = connName s.name_ (c + 1)
  loop : conn.loop = loopOf n c
  session : conn.session = run (Session.step conn.loop.isNone)
    (Session.newConnection conn.loop.isNone) actions
  entry : s.connections_[conn.name]? =
    if conn.session.entries = 0 then none else some c
  erased : conn.session.entries = 0 ↔ conn.session.erasures ≠ 0

/-- What holds of the server after the steps of its connections. -/
structure Sound (n : ℕ) (past : List (ℕ × Session.Action)) (s : TcpServer) :
    Prop where
  id : s.nextConnId_ = s.accepted.length + 1
  loops : s.threadPool_.loops = n
  next : n ≠ 0 → s.threadPool_.next_ = s.accepted.length % n
  kept : ∀ c conn, s.accepted[c]? = some conn → s.Kept n c (own c past) conn
  past : ∀ m ∈ past, m.1 < s.accepted.length
  known : ∀ (name : Bytes) (c : ℕ), s.connections_[name]? = some c →
    ∃ conn : Accepted, s.accepted[c]? = some conn ∧ conn.name = name

variable {s : TcpServer} {n : ℕ} {past : List (ℕ × Session.Action)}

theorem own_of_unaccepted {c : ℕ} (h : ∀ m ∈ past, m.1 < c) :
    own c past = [] := by
  rw [own, List.filterMap_eq_nil_iff]
  rintro ⟨d, a⟩ hmem
  exact if_neg (Nat.ne_of_lt (h _ hmem))

theorem own_append_self (c : ℕ) (a : Session.Action) :
    own c (past ++ [(c, a)]) = own c past ++ [a] := by
  simp [own]

theorem own_append_of_ne {c d : ℕ} (h : c ≠ d) (a : Session.Action) :
    own d (past ++ [(c, a)]) = own d past := by
  simp [own, h]

theorem sound_start (name : Bytes) (n : ℕ) : (start name n).Sound n [] where
  id := rfl
  loops := rfl
  next _ := by simp [start]
  kept c conn h := by simp [start] at h
  past m h := by simp at h
  known name c h := by simp [start] at h

theorem Sound.name_ne (h : s.Sound n past) {c d : ℕ} {conn other : Accepted}
    (hconn : s.accepted[c]? = some conn) (hother : s.accepted[d]? = some other)
    (hne : c ≠ d) : conn.name ≠ other.name := by
  rw [(h.kept c conn hconn).name, (h.kept d other hother).name]
  intro hname
  have hid := connName_inj hname
  omega

theorem newConnection_session (oneLoop : Bool) :
    (Session.newConnection oneLoop).entries = 1 ∧
      (Session.newConnection oneLoop).erasures = 0 := by
  cases oneLoop <;> exact ⟨rfl, rfl⟩

theorem sound_newConnection (h : s.Sound n past) :
    s.newConnection.Sound n past := by
  have hloop : s.threadPool_.getNextLoop.1 = loopOf n s.accepted.length := by
    unfold EventLoopThreadPool.getNextLoop loopOf
    rw [h.loops]
    split
    · rfl
    next hn => rw [h.next hn]
  have hname : ∀ (c : ℕ) (conn : Accepted), s.accepted[c]? = some conn →
      connName s.name_ s.nextConnId_ ≠ conn.name := by
    intro c conn hconn hname
    rw [(h.kept c conn hconn).name, h.id] at hname
    have hid := connName_inj hname
    have hlt := (List.getElem?_eq_some_iff.mp hconn).1
    omega
  refine ⟨?_, ?_, ?_, ?_, ?_, ?_⟩
  · simp [newConnection, h.id]
  · simp only [newConnection, EventLoopThreadPool.getNextLoop]
    split <;> exact h.loops
  · intro hn
    have hlt := Nat.mod_lt s.accepted.length (Nat.pos_of_ne_zero hn)
    simp only [newConnection, EventLoopThreadPool.getNextLoop, h.loops, hn,
      if_false, h.next hn, List.length_append, List.length_singleton]
    rw [← Nat.mod_add_mod]
    split
    next hlast =>
      have heq : s.accepted.length % n + 1 = n := by omega
      rw [heq, Nat.mod_self]
    next hmore => exact (Nat.mod_eq_of_lt (by omega)).symm
  · intro c conn hconn
    simp only [newConnection, List.getElem?_append] at hconn
    split at hconn
    · have hkept := h.kept c conn hconn
      refine ⟨hkept.name, hkept.loop, hkept.session, ?_, hkept.erased⟩
      simp only [newConnection, Std.ExtTreeMap.getElem?_insert,
        Std.compare_eq_iff_eq, hname c conn hconn, if_false]
      exact hkept.entry
    next hge =>
      obtain ⟨hzero, rfl⟩ := List.getElem?_eq_some_iff.mp hconn
      rw [List.length_singleton] at hzero
      have hc : c = s.accepted.length := by omega
      obtain ⟨hentries, herasures⟩ :=
        newConnection_session s.threadPool_.getNextLoop.1.isNone
      simp only [List.getElem_singleton]
      refine ⟨?_, ?_, ?_, ?_, ?_⟩
      · simp only [newConnection, h.id, hc]
      · rw [hloop, hc]
      · rw [own_of_unaccepted (hc ▸ h.past), run_nil]
      · simp [newConnection, hentries, hc]
      · simp [hentries, herasures]
  · intro m hm
    rw [newConnection, List.length_append]
    exact Nat.lt_succ_of_lt (h.past m hm)
  · intro name c hentry
    simp only [newConnection, Std.ExtTreeMap.getElem?_insert,
      Std.compare_eq_iff_eq] at hentry
    split at hentry
    next heq =>
      cases hentry
      exact ⟨_, List.getElem?_concat_length, heq⟩
    next hne =>
      obtain ⟨conn, hconn, hconnName⟩ := h.known name c hentry
      refine ⟨conn, ?_, hconnName⟩
      simp only [newConnection]
      rw [List.getElem?_append_left (List.getElem?_eq_some_iff.mp hconn).1]
      exact hconn

/-- The map after a step of a connection. -/
theorem kept_step {c d : ℕ} {conn other : Accepted} (h : s.Sound n past)
    (hconn : s.accepted[c]? = some conn) (hother : s.accepted[d]? = some other)
    (hne : c ≠ d) (a : Session.Action) :
    (s.step (.connection c a)).connections_[other.name]? =
      s.connections_[other.name]? := by
  simp only [step, hconn]
  split
  · rfl
  · simp [Std.ExtTreeMap.getElem?_erase, h.name_ne hconn hother hne]

/-- The connection itself after its step. -/
theorem kept_self {c : ℕ} {actions : List Session.Action} {conn : Accepted}
    (hconn : s.accepted[c]? = some conn) (h : s.Kept n c actions conn)
    (a : Session.Action) :
    (s.step (.connection c a)).Kept n c (actions ++ [a])
      { conn with
        session := Session.step conn.loop.isNone conn.session a } := by
  have hsession : Session.step conn.loop.isNone conn.session a =
      run (Session.step conn.loop.isNone)
        (Session.newConnection conn.loop.isNone) (actions ++ [a]) := by
    rw [run_append, ← h.session, run_cons, run_nil]
  have hentry := h.entry
  have herased := h.erased
  rcases Session.erases_step conn.loop.isNone conn.session a with
    ⟨hsame, hentries⟩ | ⟨hmore, hentries⟩
  · refine ⟨?_, h.loop, hsession, ?_, ?_⟩
    · simpa only [step, hconn] using h.name
    · simpa only [step, hconn, hsame, hentries, if_true] using hentry
    · simpa only [hsame, hentries] using herased
  · refine ⟨?_, h.loop, hsession, ?_, ?_⟩
    · simpa only [step, hconn] using h.name
    · simp [step, hconn, hmore, hentries]
    · simp [hmore, hentries]

theorem sound_connection (h : s.Sound n past) (c : ℕ) (a : Session.Action) :
    (s.step (.connection c a)).Sound n (past ++ s.moves (.connection c a)) := by
  cases hconn : s.accepted[c]? with
  | none =>
      have hc := List.getElem?_eq_none_iff.mp hconn
      simp only [step, hconn, moves, Nat.not_lt.mpr hc, if_false,
        List.append_nil]
      exact h
  | some conn =>
      have hc := (List.getElem?_eq_some_iff.mp hconn).1
      rw [moves, if_pos hc]
      have hkept := h.kept c conn hconn
      have herases := Session.erases_step conn.loop.isNone conn.session a
      have haccepted : ∀ d, c ≠ d →
          (s.step (.connection c a)).accepted[d]? = s.accepted[d]? := by
        intro d hne
        simp only [step, hconn]
        exact List.getElem?_set_ne hne
      have hself : (s.step (.connection c a)).accepted[c]? =
          some { conn with
            session := Session.step conn.loop.isNone conn.session a } := by
        simp only [step, hconn]
        exact List.getElem?_set_self (List.getElem?_eq_some_iff.mp hconn).1
      have hname := name_step s (.connection c a)
      refine ⟨?_, ?_, ?_, ?_, ?_, ?_⟩
      · simpa [step, hconn] using h.id
      · simpa [step, hconn] using h.loops
      · simpa [step, hconn] using h.next
      · intro d other hother
        by_cases hne : c = d
        · subst hne
          rw [hself] at hother
          cases hother
          rw [own_append_self]
          exact kept_self hconn hkept a
        · rw [haccepted d hne] at hother
          rw [own_append_of_ne hne]
          obtain ⟨hothers, hloop, hsession, hentry, herased⟩ :=
            h.kept d other hother
          refine ⟨by rw [hname, hothers], hloop, hsession, ?_, herased⟩
          rw [kept_step h hconn hother hne a, hentry]
      · have hlength : (s.step (.connection c a)).accepted.length =
            s.accepted.length := by simp [step, hconn]
        rw [hlength, List.forall_mem_append, List.forall_mem_singleton]
        exact ⟨h.past, hc⟩
      · intro name d hentry
        have hbefore : s.connections_[name]? = some d := by
          simp only [step, hconn] at hentry
          split at hentry
          · exact hentry
          · rw [Std.ExtTreeMap.getElem?_erase] at hentry
            split at hentry
            · cases hentry
            · exact hentry
        obtain ⟨other, hother, hotherName⟩ := h.known name d hbefore
        by_cases hne : c = d
        · subst hne
          rw [hconn] at hother
          cases hother
          exact ⟨_, hself, hotherName⟩
        · exact ⟨other, by rw [haccepted d hne, hother], hotherName⟩

theorem sound_step (h : s.Sound n past) (a : Action) :
    (s.step a).Sound n (past ++ s.moves a) := by
  cases a with
  | newConnection =>
      rw [moves, List.append_nil]
      exact sound_newConnection h
  | connection c a => exact sound_connection h c a

theorem sound_run (name : Bytes) (n : ℕ) (actions : List Action) :
    (run step (start name n) actions).Sound n
      (yields step moves (start name n) actions) :=
  run_yields moves (Sound n) (fun _ _ a hs => sound_step hs a)
    (sound_start name n) actions

theorem length_accepted_run (name : Bytes) (n : ℕ) (actions : List Action) :
    (run step (start name n) actions).accepted.length =
      actions.countP Action.isNew := by
  refine run_history
    (fun past (s : TcpServer) =>
      s.accepted.length = past.countP Action.isNew)
    (fun past s a h => ?_) rfl actions
  rw [List.countP_append, ← h]
  cases a with
  | newConnection => exact List.length_append
  | connection c a =>
      simp only [step]
      split
      · rfl
      · exact List.length_set

theorem Sound.loops_eq (h : s.Sound n past) :
    s.accepted.map Accepted.loop =
      (List.range s.accepted.length).map (loopOf n) := by
  apply List.ext_getElem (by simp)
  intro c hc _
  rw [List.getElem_map, List.getElem_map, List.getElem_range]
  rw [List.length_map] at hc
  exact (h.kept c _ (List.getElem?_eq_getElem hc)).loop

/-- How many of the first `m` connections are given the loop `i`. -/
theorem countP_loopOf {i : ℕ} (hi : i < n) (m : ℕ) :
    ((List.range m).map (loopOf n)).countP (· = some i) =
      m / n + if i < m % n then 1 else 0 := by
  have hcount := Nat.count_modEq_card m (Nat.zero_lt_of_lt hi) i
  rw [Nat.mod_eq_of_lt hi] at hcount
  rw [← hcount, Nat.count, List.countP_map]
  congr 1
  funext c
  have hn : n ≠ 0 := Nat.ne_zero_of_lt hi
  simp [loopOf, hn, Nat.ModEq, Nat.mod_eq_of_lt hi]

/-- In turn means evenly: no loop is given two connections more than
another. -/
theorem run_loops_balanced (name : Bytes) (n : ℕ) (actions : List Action)
    (i j : ℕ) (hi : i < n) (hj : j < n) :
    let s := run step (start name n) actions
    s.accepted.countP (fun conn => conn.loop = some i) ≤
      s.accepted.countP (fun conn => conn.loop = some j) + 1 := by
  intro s
  have h := sound_run name n actions
  have hloop : ∀ k < n, s.accepted.countP (fun conn => conn.loop = some k) =
      s.accepted.length / n + if k < s.accepted.length % n then 1 else 0 := by
    intro k hk
    rw [← countP_loopOf hk, ← h.loops_eq, List.countP_map]
    rfl
  rw [hloop i hi, hloop j hj]
  split <;> split <;> omega

/-- Three connections of a server with two loops. -/
theorem run_loops_balanced_three :
    let s := run step (start (ascii "http") 2)
      [.newConnection, .newConnection, .newConnection]
    s.accepted.countP (fun conn => conn.loop = some 0) ≤
      s.accepted.countP (fun conn => conn.loop = some 1) + 1 :=
  run_loops_balanced (ascii "http") 2
    [.newConnection, .newConnection, .newConnection] 0 1
    (by decide) (by decide)

end TcpServer

end MuduoHttp
