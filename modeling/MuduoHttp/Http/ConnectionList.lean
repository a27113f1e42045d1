import MuduoHttp.Http.IdleConnections
import MuduoHttp.Http.OnMessage
import MuduoHttp.Support.NodeList

/-!
# The iterators of the connection list

Every `HttpContext` stores the iterator of its connection in the list, and
`onMessage` and `onConnection` trust it: an iterator that designates no node is
undefined behaviour.  The nodes have addresses here, which are used again once
they are free, and a step that is undefined, or whose assertion fails, has no
result.

All handlers run in one thread.  A connection is reported up once and down at
most once, receives messages in between, and is not destroyed before it is
down.  What the connections have reported is read off the actions, next to the
handlers; the list has to mirror it.
-/

namespace MuduoHttp

open Support

/-- `HttpContext` with the members for the idle check. -/
structure TimedContext extends HttpContext where
  lastReceiveTime : ℤ
  position : ℕ

/-- A connection with its context and its input buffer: `connected` is
`conn->connected()`. -/
structure ListedConnection where
  context : TimedContext
  inputBuffer : Bytes := []
  connected : Bool := true
  destroyed : Bool := false

/-- The connections of an `HttpServer`.  `stopped` says that a handler did not
return. -/
structure IdleList where
  time_out : ℤ
  connectionList_ : List (Node ℕ) := []
  connection : ℕ → Option ListedConnection := fun _ => none
  stopped : Bool := false

namespace IdleList

def setConnection (s : IdleList) (id : ℕ) (c : ListedConnection) : IdleList :=
  { s with connection := Function.update s.connection id (some c) }

/-- `weak_ptr::lock`. -/
def lock (s : IdleList) (id : ℕ) : Option ListedConnection :=
  (s.connection id).filter fun c => !c.destroyed

/-! ## The handlers -/

/-- `onConnection` of a new connection. -/
def onConnectionUp (s : IdleList) (id address : ℕ) (close : Bool) (now : ℤ) :
    Option IdleList :=
  let connectionList_ := NodeList.pushBack s.connectionList_ address id
  (NodeList.back? connectionList_).map fun position =>
    let context : TimedContext :=
      { HttpContext.fresh close with
        lastReceiveTime := now, position := position }
    { s.setConnection id { context := context } with
      connectionList_ := connectionList_ }

/-- `onConnection` when the connection is destroyed. -/
def onConnectionDown (s : IdleList) (id : ℕ) (c : ListedConnection) :
    Option IdleList :=
  (NodeList.erase s.connectionList_ c.context.position).map
    fun connectionList_ =>
      { s.setConnection id { c with connected := false } with
        connectionList_ := connectionList_ }

/-- The beginning of `onMessage`, up to the assertion. -/
def touch (s : IdleList) (id : ℕ) (c : ListedConnection) (receiveTime : ℤ) :
    Option IdleList := do
  let context := { c.context with lastReceiveTime := receiveTime }
  let connectionList_ ←
    NodeList.spliceBack s.connectionList_ context.position
  if NodeList.back? connectionList_ = some context.position then
    some
      { s.setConnection id { c with context := context } with
        connectionList_ := connectionList_ }
  else none

def isShutdown : Effect → Bool
  | .shutdown => true
  | _ => false

/-- The rest of `onMessage`: the parser's part of the context changes, and the
connection may be shut down. -/
def handleRequest (httpCallback : HttpCallback) (garbage : ℤ) (s : IdleList)
    (id : ℕ) (c : ListedConnection) : IdleList :=
  match HttpServer.onMessage httpCallback garbage
    ⟨c.context.toHttpContext, c.inputBuffer⟩ with
  | .returned conn _ effects =>
      s.setConnection id
        { c with
          context := { c.context with toHttpContext := conn.context }
          inputBuffer := conn.inputBuffer
          connected := c.connected && !effects.any isShutdown }
  | _ => { s with stopped := true }

def onMessage (httpCallback : HttpCallback) (s : IdleList) (id : ℕ)
    (c : ListedConnection) (receiveTime garbage : ℤ) (chunk : Bytes) :
    Option IdleList :=
  let c := { c with inputBuffer := Buffer.append c.inputBuffer chunk }
  (s.touch id c receiveTime).map fun s =>
    match s.connection id with
    | some c => s.handleRequest httpCallback garbage id c
    | none => s

/-- The loop of `onCheckTimer` from a position in the list: the connections
and the rest of the list. -/
def checkFrom (s : IdleList) (now : ℤ) :
    List (Node ℕ) → IdleList × List (Node ℕ)
  | [] => (s, [])
  | node :: rest =>
      match s.lock node.value with
      | some c =>
          let age := now - c.context.lastReceiveTime
          if s.time_out * HttpConnections.kMicroSecondsPerSecond < age then
            let s :=
              if c.connected then
                s.setConnection node.value { c with connected := false }
              else s
            let (s, rest) := s.checkFrom now rest
            (s, node :: rest)
          else if age < 0 then
            let context := { c.context with lastReceiveTime := now }
            let (s, rest) :=
              (s.setConnection node.value { c with context := context }).checkFrom
                now rest
            (s, node :: rest)
          else (s, node :: rest)
      | none => s.checkFrom now rest

def onCheckTimer (s : IdleList) (now : ℤ) : IdleList :=
  let (s', connectionList_) := s.checkFrom now s.connectionList_
  { s' with connectionList_ := connectionList_ }

/-! ## Steps -/

/-- The handlers, a connection that leaves `kConnected` without a report, and
the end of a connection. -/
inductive Action
  | up (id address : ℕ) (close : Bool) (now : ℤ)
  | message (id : ℕ) (receiveTime garbage : ℤ) (chunk : Bytes)
  | down (id : ℕ)
  | checkTimer (now : ℤ)
  | disconnect (id : ℕ)
  | destroy (id : ℕ)

/-- Every handler is called with a connection that is there; without one it
would be undefined. -/
def handle (httpCallback : HttpCallback) (s : IdleList) :
    Action → Option IdleList
  | .up id address close now => s.onConnectionUp id address close now
  | .message id receiveTime garbage chunk =>
      (s.connection id).bind fun c =>
        s.onMessage httpCallback id c receiveTime garbage chunk
  | .down id => (s.connection id).bind (s.onConnectionDown id)
  | .checkTimer now => some (s.onCheckTimer now)
  | .disconnect id =>
      (s.connection id).map fun c =>
        s.setConnection id { c with connected := false }
  | .destroy id =>
      (s.connection id).map fun c =>
        s.setConnection id { c with destroyed := true }

end IdleList

/-! ## What the connections report -/

/-- What a connection has reported to `onConnection`. -/
inductive Report
  | nothing
  | up
  | down
  deriving DecidableEq, Repr

/-- The actions so far as the connections know them: what each has reported,
and the step of its latest activity, at which it came up or received its latest
message. -/
structure Activity where
  reported : ℕ → Report := fun _ => .nothing
  latest : ℕ → ℕ := fun _ => 0
  steps : ℕ := 0

namespace Activity

/-- A connection comes up once and goes down at most once, has messages in
between, and is destroyed when it is down. -/
def allows (t : Activity) : IdleList.Action → Bool
  | .up id _ _ _ => t.reported id = .nothing
  | .message id _ _ _ => t.reported id = .up
  | .down id => t.reported id = .up
  | .checkTimer _ => true
  | .disconnect id => t.reported id ≠ .nothing
  | .destroy id => t.reported id = .down

def report (t : Activity) (id : ℕ) (report : Report) : Activity :=
  { t with reported := Function.update t.reported id report }

def stamp (t : Activity) (id : ℕ) : Activity :=
  { t with latest := Function.update t.latest id t.steps }

def tick (t : Activity) : Activity := { t with steps := t.steps + 1 }

def record (t : Activity) : IdleList.Action → Activity
  | .up id _ _ _ => ((t.report id .up).stamp id).tick
  | .message id _ _ _ => (t.stamp id).tick
  | .down id => (t.report id .down).tick
  | .checkTimer _ | .disconnect _ | .destroy _ => t.tick

end Activity

namespace IdleList

/-- The address of a new node is free. -/
def addressFree (s : IdleList) : Action → Bool
  | .up _ address _ _ => address ∉ s.connectionList_.map (·.address)
  | _ => true

/-- One step of the handlers beside the reports, of which nothing is left when
it is undefined or its assertion fails.  An action that cannot happen changes
nothing. -/
def step (httpCallback : HttpCallback) (run : Option (IdleList × Activity))
    (a : Action) : Option (IdleList × Activity) :=
  run.bind fun (s, t) =>
    if !s.stopped && t.allows a && s.addressFree a then
      (s.handle httpCallback a).map fun s' => (s', t.record a)
    else some (s, t)

/-! ## What the list mirrors -/

/-- The list has one entry for each connection that is up and none for others,
each of these connections stores the position of its entry, at which no other
entry is, and the entries are in the order of the latest activity. -/
structure Mirrors (s : IdleList) (t : Activity) : Prop where
  entries : ∀ id, (s.connectionList_.map (·.value)).count id =
    if t.reported id = .up then 1 else 0
  positions : ∀ id, t.reported id = .up → ∃ c, s.connection id = some c ∧
    ∀ node ∈ s.connectionList_,
      node.address = c.context.position ↔ node.value = id
  order : s.connectionList_.Pairwise fun a b =>
    t.latest a.value < t.latest b.value

/-! ## The invariant -/

/-- What the list depends on of a connection. -/
structure Placement where
  destroyed : Bool
  position : ℕ

end IdleList

def ListedConnection.placement (c : ListedConnection) : IdleList.Placement :=
  ⟨c.destroyed, c.context.position⟩

namespace IdleList

def placement (s : IdleList) (id : ℕ) : Option Placement :=
  (s.connection id).map (·.placement)

variable {s s' : IdleList} {t t' : Activity} {id : ℕ} {c : ListedConnection}

theorem placement_of_eq (h : s.connection id = some c) :
    s.placement id = some c.placement := by
  rw [placement, h, Option.map_some]

theorem placement_setConnection (s : IdleList) (id : ℕ)
    (c : ListedConnection) :
    (s.setConnection id c).placement =
      Function.update s.placement id (some c.placement) := by
  funext d
  by_cases hd : d = id
  · subst hd
    simp [placement, setConnection]
  · simp [placement, setConnection, hd]

/-- A change that does not concern the list. -/
theorem placement_setConnection_of_eq {c' : ListedConnection}
    (h : s.connection id = some c) (hc : c'.placement = c.placement) :
    (s.setConnection id c').placement = s.placement := by
  rw [placement_setConnection, hc, ← placement_of_eq h,
    Function.update_eq_self]

/-- Every node belongs to a connection that is up and stores its address, every
such connection has a node, and the nodes are in the order of past
activities. -/
structure Listed (s : IdleList) (t : Activity) : Prop where
  distinct : NodeList.Distinct s.connectionList_
  nodes : ∀ node ∈ s.connectionList_, t.reported node.value = .up ∧
    ∃ p, s.placement node.value = some p ∧ p.position = node.address
  placed : ∀ id, t.reported id = .up → ∃ p, s.placement id = some p ∧
    p.destroyed = false ∧ ⟨p.position, id⟩ ∈ s.connectionList_
  known : ∀ id, t.reported id ≠ .nothing → s.placement id ≠ none
  order : InOrder (· < ·) t.latest (s.connectionList_.map (·.value))
  past : ∀ id, t.reported id ≠ .nothing → t.latest id < t.steps

namespace Listed

theorem init (time_out : ℤ) : Listed { time_out := time_out } {} where
  distinct := ⟨List.nodup_nil, List.nodup_nil⟩
  nodes node hnode := by cases hnode
  placed id hup := by cases hup
  known id hid := absurd rfl hid
  order := List.Pairwise.nil
  past id hid := absurd rfl hid

/-- What does not concern the list takes a step. -/
theorem of_placement (h : s.Listed t)
    (hlist : s'.connectionList_ = s.connectionList_)
    (hplacement : s'.placement = s.placement) : s'.Listed t.tick where
  distinct := by
    rw [hlist]
    exact h.distinct
  nodes := by
    rw [hlist, hplacement]
    exact h.nodes
  placed := by
    rw [hlist, hplacement]
    exact h.placed
  known := by
    rw [hplacement]
    exact h.known
  order := by
    rw [hlist]
    exact h.order
  past id hid := (h.past id hid).trans (Nat.lt_succ_self _)

/-- The values of the list are connections that are up. -/
theorem mem_values (h : s.Listed t) :
    id ∈ s.connectionList_.map (·.value) ↔ t.reported id = .up := by
  constructor
  · intro hmem
    obtain ⟨node, hnode, rfl⟩ := List.mem_map.mp hmem
    exact (h.nodes node hnode).1
  · intro hup
    obtain ⟨p, -, -, hnode⟩ := h.placed id hup
    exact List.mem_map.mpr ⟨_, hnode, rfl⟩

/-- The connection of a report. -/
theorem connection (h : s.Listed t) (hid : t.reported id ≠ .nothing) :
    ∃ c, s.connection id = some c := by
  rw [← Option.ne_none_iff_exists']
  intro hnone
  exact h.known id hid (by rw [placement, hnone, Option.map_none])

theorem mem_of_placement (h : s.Listed t) (hup : t.reported id = .up)
    (hc : s.placement id = some c.placement) :
    ⟨c.context.position, id⟩ ∈ s.connectionList_ ∧ c.destroyed = false := by
  obtain ⟨p, hp, halive, hnode⟩ := h.placed id hup
  obtain rfl := Option.some.inj (hc.symm.trans hp)
  exact ⟨hnode, halive⟩

theorem mirrors (h : s.Listed t) : s.Mirrors t where
  entries id := by
    split
    next hup =>
      exact List.count_eq_one_of_mem h.distinct.values (h.mem_values.mpr hup)
    next hdown =>
      exact List.count_eq_zero_of_not_mem fun hmem =>
        hdown (h.mem_values.mp hmem)
  positions id hup := by
    obtain ⟨p, hp, -, hplaced⟩ := h.placed id hup
    obtain ⟨c, hc, rfl⟩ := Option.map_eq_some_iff.mp hp
    exact ⟨c, hc, fun node hnode => h.distinct.address_eq_iff hnode hplaced⟩
  order := by
    have horder := h.order
    rwa [InOrder, List.pairwise_map] at horder

/-! ### The handlers -/

theorem mem_iff_of_notMem
    (hid : id ∉ s.connectionList_.map (·.value)) {node : Node ℕ} :
    node ∈ s.connectionList_ ↔
      node ∈ s.connectionList_ ∧ node.value ≠ id := by
  constructor
  · intro hnode
    refine ⟨hnode, ?_⟩
    rintro rfl
    exact hid (List.mem_map_of_mem hnode)
  · exact And.left

/-- An active connection gets its node at the end of the list, and has no
other. -/
theorem putLast (h : s.Listed t) {l : List (Node ℕ)}
    (hl : ∀ node, node ∈ l ↔ node ∈ s.connectionList_ ∧ node.value ≠ id)
    (hdistinct :
      NodeList.Distinct (l ++ [(⟨c.context.position, id⟩ : Node ℕ)]))
    (hvalues : l.map (·.value) = (s.connectionList_.map (·.value)).erase id)
    (halive : c.destroyed = false) :
    Listed
      { s.setConnection id c with
        connectionList_ := l ++ [⟨c.context.position, id⟩] }
      ((t.report id .up).stamp id).tick := by
  have hplacement : IdleList.placement
      { s.setConnection id c with
        connectionList_ := l ++ [⟨c.context.position, id⟩] } =
      Function.update s.placement id (some c.placement) :=
    placement_setConnection s id c
  have hreported : (((t.report id .up).stamp id).tick).reported =
      Function.update t.reported id .up := rfl
  have hlatest : (((t.report id .up).stamp id).tick).latest =
      Function.update t.latest id t.steps := rfl
  have hother : ∀ d, d ≠ id → t.reported d ≠ .nothing →
      t.latest d < t.steps := fun d _ hd => h.past d hd
  constructor
  · exact hdistinct
  · intro node hnode
    rw [hplacement, hreported]
    rcases List.mem_append.mp hnode with hold | hnew
    · obtain ⟨hmem, hne⟩ := (hl node).mp hold
      rw [Function.update_of_ne hne, Function.update_of_ne hne]
      exact h.nodes node hmem
    · rw [List.mem_singleton.mp hnew, Function.update_self,
        Function.update_self]
      exact ⟨rfl, _, rfl, rfl⟩
  · intro d hup
    rw [hplacement]
    rw [hreported] at hup
    by_cases hd : d = id
    · subst hd
      rw [Function.update_self]
      exact ⟨_, rfl, halive,
        List.mem_append_right _ (List.mem_singleton_self _)⟩
    · rw [Function.update_of_ne hd] at hup ⊢
      obtain ⟨p, hp, hpalive, hnode⟩ := h.placed d hup
      exact ⟨p, hp, hpalive, List.mem_append_left _ ((hl _).mpr ⟨hnode, hd⟩)⟩
  · intro d hid
    rw [hplacement]
    rw [hreported] at hid
    by_cases hd : d = id
    · rw [hd, Function.update_self]
      exact Option.some_ne_none _
    · rw [Function.update_of_ne hd] at hid ⊢
      exact h.known d hid
  · rw [hlatest, List.map_append, hvalues]
    apply InOrder.touch h.order h.distinct.values
    intro d hd hne
    refine hother d hne ?_
    rw [h.mem_values.mp hd]
    decide
  · intro d hid
    rw [hreported] at hid
    rw [hlatest]
    by_cases hd : d = id
    · rw [hd, Function.update_self]
      exact Nat.lt_succ_self _
    · rw [Function.update_of_ne hd] at hid ⊢
      exact (hother d hd hid).trans (Nat.lt_succ_self _)

theorem onConnectionUp (h : s.Listed t) (hnew : t.reported id = .nothing)
    {address : ℕ} (hfree : address ∉ s.connectionList_.map (·.address))
    (close : Bool) (now : ℤ) :
    ∃ s', s.onConnectionUp id address close now = some s' ∧
      s'.Listed ((t.report id .up).stamp id).tick := by
  have hnotMem : id ∉ s.connectionList_.map (·.value) := by
    rw [h.mem_values, hnew]
    decide
  simp only [IdleList.onConnectionUp, NodeList.pushBack,
    NodeList.back?_append, Option.map_some]
  refine ⟨_, rfl, ?_⟩
  apply h.putLast
  · exact fun node => mem_iff_of_notMem hnotMem
  · exact h.distinct.append hfree hnotMem
  · rw [List.erase_of_not_mem hnotMem]
  · rfl

/-- `onMessage` splices the node of its connection, and the assertion
holds. -/
theorem touch (h : s.Listed t) (hup : t.reported id = .up)
    (hc : s.placement id = some c.placement) (receiveTime : ℤ) :
    ∃ s', s.touch id c receiveTime = some s' ∧
      s'.Listed (t.stamp id).tick := by
  obtain ⟨hnode, halive⟩ := h.mem_of_placement hup hc
  have hsplice : NodeList.spliceBack s.connectionList_ c.context.position =
      some (NodeList.remove s.connectionList_ c.context.position ++
        [⟨c.context.position, id⟩]) :=
    h.distinct.spliceBack hnode
  have hstamp : (t.stamp id).tick = ((t.report id .up).stamp id).tick := by
    rw [Activity.report, ← hup, Function.update_eq_self]
  simp only [IdleList.touch, hsplice, Option.bind_eq_bind, Option.bind_some,
    NodeList.back?_append, if_true]
  refine ⟨_, rfl, ?_⟩
  rw [hstamp]
  apply h.putLast (c := { c with
    context := { c.context with lastReceiveTime := receiveTime } })
  · exact fun node => h.distinct.mem_remove_iff hnode
  · exact h.distinct.remove_append hnode
  · exact h.distinct.map_remove hnode
  · exact halive

/-- A connection that is not up has no node. -/
theorem takeOut (h : s.Listed t) {c' : ListedConnection}
    {l : List (Node ℕ)}
    (hl : ∀ node, node ∈ l ↔ node ∈ s.connectionList_ ∧ node.value ≠ id)
    (hdistinct : NodeList.Distinct l)
    (hvalues : l.map (·.value) = (s.connectionList_.map (·.value)).erase id)
    (hid : t.reported id ≠ .nothing) :
    Listed { s.setConnection id c' with connectionList_ := l }
      (t.report id .down).tick := by
  have hplacement : IdleList.placement
      { s.setConnection id c' with connectionList_ := l } =
      Function.update s.placement id (some c'.placement) :=
    placement_setConnection s id c'
  have hreported : ((t.report id .down).tick).reported =
      Function.update t.reported id .down := rfl
  constructor
  · exact hdistinct
  · intro node hnode
    obtain ⟨hmem, hne⟩ := (hl node).mp hnode
    rw [hplacement, hreported, Function.update_of_ne hne,
      Function.update_of_ne hne]
    exact h.nodes node hmem
  · intro d hup
    rw [hreported] at hup
    rw [hplacement]
    by_cases hd : d = id
    · rw [hd, Function.update_self] at hup
      cases hup
    · rw [Function.update_of_ne hd] at hup ⊢
      obtain ⟨p, hp, halive, hnode⟩ := h.placed d hup
      exact ⟨p, hp, halive, (hl _).mpr ⟨hnode, hd⟩⟩
  · intro d hknown
    rw [hreported] at hknown
    rw [hplacement]
    by_cases hd : d = id
    · rw [hd, Function.update_self]
      exact Option.some_ne_none _
    · rw [Function.update_of_ne hd] at hknown ⊢
      exact h.known d hknown
  · rw [hvalues]
    exact h.order.erase id
  · intro d hknown
    rw [hreported] at hknown
    refine (h.past d ?_).trans (Nat.lt_succ_self _)
    by_cases hd : d = id
    · rwa [hd]
    · rwa [Function.update_of_ne hd] at hknown

/-- The node of a connection that goes down is erased. -/
theorem onConnectionDown (h : s.Listed t) (hup : t.reported id = .up)
    (hc : s.connection id = some c) :
    ∃ s', s.onConnectionDown id c = some s' ∧
      s'.Listed (t.report id .down).tick := by
  have hnode := (h.mem_of_placement hup (placement_of_eq hc)).1
  have herase : NodeList.erase s.connectionList_ c.context.position =
      some (NodeList.remove s.connectionList_ c.context.position) :=
    h.distinct.erase hnode
  simp only [IdleList.onConnectionDown, herase, Option.map_some]
  refine ⟨_, rfl, ?_⟩
  apply h.takeOut
  · exact fun node => h.distinct.mem_remove_iff hnode
  · exact h.distinct.remove _
  · exact h.distinct.map_remove hnode
  · rw [hup]
    decide

/-- A connection that is down is destroyed. -/
theorem destroy (h : s.Listed t) (hdown : t.reported id = .down)
    (c' : ListedConnection) : (s.setConnection id c').Listed t.tick := by
  have hnotMem : id ∉ s.connectionList_.map (·.value) := by
    rw [h.mem_values, hdown]
    decide
  have hreport : t.tick = (t.report id .down).tick := by
    rw [Activity.report, ← hdown, Function.update_eq_self]
  rw [hreport]
  apply h.takeOut
  · exact fun node => mem_iff_of_notMem hnotMem
  · exact h.distinct
  · rw [List.erase_of_not_mem hnotMem]
  · rw [hdown]
    decide

end Listed

/-- The rest of `onMessage` does not concern the list. -/
theorem handleRequest_spec (httpCallback : HttpCallback) (garbage : ℤ)
    (hc : s.connection id = some c) :
    (s.handleRequest httpCallback garbage id c).connectionList_ =
        s.connectionList_ ∧
      (s.handleRequest httpCallback garbage id c).placement = s.placement := by
  unfold handleRequest
  split
  · exact ⟨rfl, placement_setConnection_of_eq hc rfl⟩
  · exact ⟨rfl, rfl⟩

/-- The invariant does not depend on more than the list and the placements. -/
theorem Listed.congr (h : s.Listed t)
    (hlist : s'.connectionList_ = s.connectionList_)
    (hplacement : s'.placement = s.placement) : s'.Listed t := by
  obtain ⟨hdistinct, hnodes, hplaced, hknown, horder, hpast⟩ := h
  constructor
  · rwa [hlist]
  · rwa [hlist, hplacement]
  · rwa [hlist, hplacement]
  · rwa [hplacement]
  · rwa [hlist]
  · exact hpast

theorem Listed.onMessage (h : s.Listed t) (hup : t.reported id = .up)
    (hc : s.connection id = some c) (httpCallback : HttpCallback)
    (receiveTime garbage : ℤ) (chunk : Bytes) :
    ∃ s', s.onMessage httpCallback id c receiveTime garbage chunk = some s' ∧
      s'.Listed (t.stamp id).tick := by
  have hplacement : s.placement id = some c.placement := placement_of_eq hc
  obtain ⟨s', hs', hlisted⟩ := h.touch hup
    (c := { c with inputBuffer := Buffer.append c.inputBuffer chunk })
    hplacement receiveTime
  simp only [IdleList.onMessage, hs', Option.map_some]
  refine ⟨_, rfl, ?_⟩
  split
  next c' hc' =>
    obtain ⟨hlist, hsame⟩ := handleRequest_spec httpCallback garbage hc'
    exact hlisted.congr hlist hsame
  · exact hlisted

/-- Where every connection of the rest can be locked, the timer erases nothing,
and what it changes does not concern the list. -/
theorem checkFrom_spec (now : ℤ) {rest : List (Node ℕ)}
    (hrest : ∀ node ∈ rest, ∃ p, s.placement node.value = some p ∧
      p.destroyed = false) :
    (s.checkFrom now rest).2 = rest ∧
      (s.checkFrom now rest).1.placement = s.placement := by
  induction rest generalizing s with
  | nil => exact ⟨rfl, rfl⟩
  | cons node rest ih =>
      obtain ⟨hnode, hmore⟩ := List.forall_mem_cons.mp hrest
      obtain ⟨p, hp, halive⟩ := hnode
      obtain ⟨c, hc, rfl⟩ := Option.map_eq_some_iff.mp hp
      have hlock : s.lock node.value = some c := by
        have hdestroyed : c.destroyed = false := halive
        simp [lock, hc, hdestroyed]
      -- the loop goes on from a state with the same placements
      have hnext : ∀ u : IdleList, u.placement = s.placement →
          (u.checkFrom now rest).2 = rest ∧
            (u.checkFrom now rest).1.placement = s.placement := by
        intro u hplacement
        rw [← hplacement]
        apply ih
        rw [hplacement]
        exact hmore
      simp only [checkFrom, hlock]
      split
      · have hclosed : IdleList.placement
            (if c.connected then
              s.setConnection node.value { c with connected := false }
            else s) = s.placement := by
          split
          · exact placement_setConnection_of_eq hc rfl
          · rfl
        obtain ⟨hlist, hsame⟩ := hnext _ hclosed
        exact ⟨by rw [hlist], hsame⟩
      · split
        · have hstamped : IdleList.placement
              (s.setConnection node.value
                { c with
                  context := { c.context with lastReceiveTime := now } }) =
              s.placement :=
            placement_setConnection_of_eq hc rfl
          obtain ⟨hlist, hsame⟩ := hnext _ hstamped
          exact ⟨by rw [hlist], hsame⟩
        · exact ⟨rfl, rfl⟩

theorem Listed.onCheckTimer (h : s.Listed t) (now : ℤ) :
    (s.onCheckTimer now).Listed t.tick := by
  have hlocked : ∀ node ∈ s.connectionList_,
      ∃ p, s.placement node.value = some p ∧ p.destroyed = false := by
    intro node hnode
    obtain ⟨p, hp, halive, -⟩ := h.placed node.value (h.nodes node hnode).1
    exact ⟨p, hp, halive⟩
  obtain ⟨hlist, hplacement⟩ := checkFrom_spec now hlocked
  exact h.of_placement hlist hplacement

/-- No handler is undefined, and each keeps the invariant. -/
theorem Listed.handle (h : s.Listed t) (httpCallback : HttpCallback)
    {a : Action} (hallows : t.allows a = true)
    (hfree : s.addressFree a = true) :
    ∃ s', s.handle httpCallback a = some s' ∧ s'.Listed (t.record a) := by
  cases a with
  | up id address close now =>
      exact h.onConnectionUp (of_decide_eq_true hallows)
        (of_decide_eq_true hfree) close now
  | message id receiveTime garbage chunk =>
      have hup : t.reported id = .up := of_decide_eq_true hallows
      have hknown : t.reported id ≠ .nothing := by simp [hup]
      obtain ⟨c, hc⟩ := h.connection hknown
      rw [IdleList.handle, hc, Option.bind_some]
      exact h.onMessage hup hc httpCallback receiveTime garbage chunk
  | down id =>
      have hup : t.reported id = .up := of_decide_eq_true hallows
      have hknown : t.reported id ≠ .nothing := by simp [hup]
      obtain ⟨c, hc⟩ := h.connection hknown
      rw [IdleList.handle, hc, Option.bind_some]
      exact h.onConnectionDown hup hc
  | checkTimer now => exact ⟨_, rfl, h.onCheckTimer now⟩
  | disconnect id =>
      obtain ⟨c, hc⟩ := h.connection (of_decide_eq_true hallows)
      rw [IdleList.handle, hc, Option.map_some]
      refine ⟨s.setConnection id _, rfl, h.of_placement rfl ?_⟩
      exact placement_setConnection_of_eq hc rfl
  | destroy id =>
      have hdown : t.reported id = .down := of_decide_eq_true hallows
      have hknown : t.reported id ≠ .nothing := by simp [hdown]
      obtain ⟨c, hc⟩ := h.connection hknown
      rw [IdleList.handle, hc, Option.map_some]
      exact ⟨_, rfl, h.destroy hdown _⟩

/-- A run so far: it is defined, and the invariant holds. -/
def Sound (run : Option (IdleList × Activity)) : Prop :=
  ∃ s t, run = some (s, t) ∧ s.Listed t

theorem sound_step (httpCallback : HttpCallback)
    (run : Option (IdleList × Activity)) (a : Action) (h : Sound run) :
    Sound (step httpCallback run a) := by
  obtain ⟨s, t, rfl, hlisted⟩ := h
  simp only [step, Option.bind_some]
  split
  next henabled =>
    simp only [Bool.and_eq_true] at henabled
    obtain ⟨s', hs', hnext⟩ :=
      hlisted.handle httpCallback henabled.1.2 henabled.2
    rw [hs', Option.map_some]
    exact ⟨s', t.record a, rfl, hnext⟩
  · exact ⟨s, t, rfl, hlisted⟩

end IdleList

/-- In every run of the handlers no step is undefined, the assertion of
`onMessage` never fails, and the list mirrors what the connections have
reported. -/
theorem list_mirrors_connections (httpCallback : HttpCallback) (time_out : ℤ)
    (actions : List IdleList.Action) :
    ∃ s t, run (IdleList.step httpCallback)
        (some ({ time_out := time_out }, {})) actions = some (s, t) ∧
      s.Mirrors t := by
  have hinit : IdleList.Sound (some ({ time_out := time_out }, {})) :=
    ⟨_, _, rfl, IdleList.Listed.init time_out⟩
  obtain ⟨s, t, hs, hlisted⟩ := run_invariant_of_forall IdleList.Sound
    (IdleList.sound_step httpCallback) hinit actions
  exact ⟨s, t, hs, hlisted.mirrors⟩

/-- Three connections come up, the first has a message, the second goes down,
its node is used for a fourth, and the check finds the third one idle. -/
def messageAndReuse : List IdleList.Action :=
  [.up 0 10 false 0, .up 1 11 false 1, .up 2 12 false 2,
    .message 0 3 0 (ascii "GET "), .down 1, .destroy 1,
    .up 3 11 false 9000000, .checkTimer 9000000]

/-- The idle connection is first, the one with the message behind it, and the
one that came up last at the end, in the node of the one that went down. -/
theorem list_mirrors_connections_messageAndReuse :
    ∃ s t, run (IdleList.step fun _ r => r) (some ({ time_out := 8 }, {}))
        messageAndReuse = some (s, t) ∧
      s.connectionList_ = [⟨12, 2⟩, ⟨10, 0⟩, ⟨11, 3⟩] ∧
        t.reported 1 = .down ∧ s.Mirrors t := by
  obtain ⟨s, t, hrun, hmirrors⟩ :=
    list_mirrors_connections (fun _ r => r) 8 messageAndReuse
  have hlist : ((run (IdleList.step fun _ r => r)
      (some ({ time_out := 8 }, {})) messageAndReuse).map fun r =>
        (r.1.connectionList_, r.2.reported 1)) =
      some ([⟨12, 2⟩, ⟨10, 0⟩, ⟨11, 3⟩], .down) := by
    decide
  rw [hrun, Option.map_some] at hlist
  obtain ⟨hnodes, hdown⟩ := Prod.mk.inj (Option.some.inj hlist)
  exact ⟨s, t, hrun, hnodes, hdown, hmirrors⟩

end MuduoHttp
