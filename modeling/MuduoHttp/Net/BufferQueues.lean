import MuduoHttp.Net.RawBuffer

/-!
# Buffers are byte queues

Operations on a family of buffers, in any order, have the effect of the queue
operations on their contents, and no assert fails.
-/

namespace MuduoHttp

open Support

variable {ι : Type*}

/-- The operations on the buffers of a family.  The bytes of `hasWritten` are
those stored from `beginWrite()` on, and `readFd` has what `readv` read, if it
did not fail. -/
inductive BufferOp (ι : Type*)
  | append (i : ι) (data : Bytes)
  | prepend (i : ι) (data : Bytes)
  | retrieve (i : ι) (len : ℕ)
  | retrieveAll (i : ι)
  | retrieveAsString (i : ι) (len : ℕ)
  | ensureWritableBytes (i : ι) (len : ℕ)
  | hasWritten (i : ι) (data : Bytes)
  | unwrite (i : ι) (len : ℕ)
  | shrink (i : ι) (reserve : ℕ)
  | swap (i j : ι)
  | readFd (i : ι) (input : Option Bytes)

/-- A family of buffers, the strings that were retrieved, and whether all
asserts held. -/
structure Buffers (ι : Type*) where
  buffers : ι → RawBuffer
  strings : List Bytes := []
  asserts : Bool := true

/-- The queues that the buffers stand for. -/
structure Queues (ι : Type*) where
  queues : ι → Bytes
  strings : List Bytes := []

/-- Exchange two members of a family. -/
def exchange {β : Type*} [DecidableEq ι] (f : ι → β) (i j : ι) : ι → β :=
  Function.update (Function.update f i (f j)) j (f i)

namespace Buffers

variable [DecidableEq ι]

/-- A buffer after an operation, which has no result if an assert failed. -/
def set (s : Buffers ι) (i : ι) : Option RawBuffer → Buffers ι
  | some buffer => { s with buffers := Function.update s.buffers i buffer }
  | none => { s with asserts := false }

def step (s : Buffers ι) : BufferOp ι → Buffers ι
  | .append i data => s.set i ((s.buffers i).append data)
  | .prepend i data => s.set i ((s.buffers i).prepend data)
  | .retrieve i len => s.set i ((s.buffers i).retrieve len)
  | .retrieveAll i => s.set i (some (s.buffers i).retrieveAll)
  | .retrieveAsString i len =>
      match (s.buffers i).retrieveAsString len with
      | some (result, buffer) =>
          { s with strings := s.strings ++ [result] }.set i (some buffer)
      | none => s.set i none
  | .ensureWritableBytes i len =>
      s.set i ((s.buffers i).ensureWritableBytes len)
  | .hasWritten i data =>
      s.set i (((s.buffers i).store data).hasWritten data.length)
  | .unwrite i len => s.set i ((s.buffers i).unwrite len)
  | .shrink i reserve => s.set i ((s.buffers i).shrink reserve)
  | .swap i j => { s with buffers := exchange s.buffers i j }
  | .readFd i input => s.set i ((s.buffers i).readFd input)

/-- What the callers of the operations promise, and `readv` does. -/
def Ready (s : Buffers ι) : BufferOp ι → Prop
  | .prepend i data => data.length ≤ (s.buffers i).prependableBytes
  | .retrieve i len | .retrieveAsString i len | .unwrite i len =>
      len ≤ (s.buffers i).readableBytes
  | .hasWritten i data => data.length ≤ (s.buffers i).writableBytes
  | .readFd i (some input) => input.length ≤ (s.buffers i).offered
  | .append _ _ | .retrieveAll _ | .ensureWritableBytes _ _ | .shrink _ _
  | .swap _ _ | .readFd _ none => True

instance (s : Buffers ι) : (op : BufferOp ι) → Decidable (s.Ready op)
  | .prepend _ _ | .retrieve _ _ | .retrieveAsString _ _ | .unwrite _ _
  | .hasWritten _ _ | .readFd _ (some _) => Nat.decLe _ _
  | .append _ _ | .retrieveAll _ | .ensureWritableBytes _ _ | .shrink _ _
  | .swap _ _ | .readFd _ none => .isTrue trivial

end Buffers

def Queues.step [DecidableEq ι] (t : Queues ι) : BufferOp ι → Queues ι
  | .append i data | .hasWritten i data | .readFd i (some data) =>
      { t with
        queues := Function.update t.queues i (Buffer.append (t.queues i) data) }
  | .prepend i data =>
      { t with queues := Function.update t.queues i (data ++ t.queues i) }
  | .retrieve i len =>
      { t with
        queues := Function.update t.queues i (Buffer.retrieve (t.queues i) len) }
  | .retrieveAll i => { t with queues := Function.update t.queues i [] }
  | .retrieveAsString i len =>
      { t with
        queues := Function.update t.queues i (Buffer.retrieve (t.queues i) len)
        strings := t.strings ++ [(t.queues i).take len] }
  | .unwrite i len =>
      { t with queues := Function.update t.queues i ((t.queues i).rdrop len) }
  | .swap i j => { t with queues := exchange t.queues i j }
  | .ensureWritableBytes _ _ | .shrink _ _ | .readFd _ none => t

namespace Buffers

variable [DecidableEq ι]

/-- Every buffer represents its queue, and no assert has failed. -/
structure Refines (s : Buffers ι) (t : Queues ι) : Prop where
  represents : ∀ i, (s.buffers i).Represents (t.queues i)
  strings : s.strings = t.strings
  asserts : s.asserts = true

variable {s : Buffers ι} {t : Queues ι}

/-- An operation on one buffer that has the effect `q` on its queue. -/
theorem Refines.set (h : s.Refines t) {i : ι} {result : Option RawBuffer}
    {q : Bytes} (hresult : ∃ b, result = some b ∧ b.Represents q) :
    (s.set i result).Refines
      { t with queues := Function.update t.queues i q } := by
  obtain ⟨b, rfl, hb⟩ := hresult
  refine ⟨?_, h.strings, h.asserts⟩
  intro j
  by_cases hj : j = i
  · subst hj
    simpa [Buffers.set] using hb
  · simpa [Buffers.set, hj] using h.represents j

/-- An operation that leaves its queue alone. -/
theorem Refines.set_same (h : s.Refines t) {i : ι}
    {result : Option RawBuffer}
    (hresult : ∃ b, result = some b ∧ b.Represents (t.queues i)) :
    (s.set i result).Refines t := by
  have hset := h.set (i := i) hresult
  rwa [Function.update_eq_self] at hset

theorem Refines.swap (h : s.Refines t) (i j : ι) :
    Refines { s with buffers := exchange s.buffers i j }
      { t with queues := exchange t.queues i j } := by
  refine ⟨?_, h.strings, h.asserts⟩
  intro k
  simp only [exchange, Function.update_apply]
  split
  · exact h.represents i
  · split
    · exact h.represents j
    · exact h.represents k

theorem Refines.step (h : s.Refines t) {op : BufferOp ι} (hop : s.Ready op) :
    (s.step op).Refines (t.step op) := by
  cases op with
  | append i data => exact h.set ((h.represents i).append data)
  | prepend i data => exact h.set ((h.represents i).prepend hop)
  | retrieve i len =>
      have hlen : len ≤ (t.queues i).length :=
        (h.represents i).readableBytes ▸ hop
      simpa only [Buffers.step, Queues.step, Buffer.retrieve_eq_drop] using
        h.set ((h.represents i).retrieve hlen)
  | retrieveAll i =>
      exact h.set ⟨_, rfl, (h.represents i).retrieveAll⟩
  | retrieveAsString i len =>
      have hlen : len ≤ (t.queues i).length :=
        (h.represents i).readableBytes ▸ hop
      obtain ⟨b, hb, hrest⟩ := (h.represents i).retrieveAsString hlen
      have hstrings : Refines
          { s with strings := s.strings ++ [(t.queues i).take len] }
          { t with strings := t.strings ++ [(t.queues i).take len] } :=
        ⟨h.represents, by simp [h.strings], h.asserts⟩
      simpa only [Buffers.step, hb, Queues.step, Buffer.retrieve_eq_drop] using
        hstrings.set ⟨b, rfl, hrest⟩
  | ensureWritableBytes i len =>
      obtain ⟨b, hb, hsame, -⟩ := (h.represents i).ensureWritableBytes len
      exact h.set_same ⟨b, hb, hsame⟩
  | hasWritten i data => exact h.set ((h.represents i).hasWritten hop)
  | unwrite i len =>
      have hlen : len ≤ (t.queues i).length :=
        (h.represents i).readableBytes ▸ hop
      exact h.set ((h.represents i).unwrite hlen)
  | shrink i reserve =>
      simp only [Buffers.step, Queues.step]
      exact h.set_same ((h.represents i).shrink reserve)
  | swap i j => exact h.swap i j
  | readFd i input =>
      cases input with
      | none => exact h.set_same ⟨_, rfl, h.represents i⟩
      | some input => exact h.set ((h.represents i).readFd input)

/-- New buffers of the given sizes. -/
def fresh (sizes : ι → ℕ) : Buffers ι where
  buffers i := RawBuffer.new (sizes i)

omit [DecidableEq ι] in
theorem refines_fresh (sizes : ι → ℕ) :
    (fresh sizes).Refines { queues := fun _ => [] } :=
  ⟨fun i => RawBuffer.represents_new (sizes i), rfl, rfl⟩

end Buffers

/-- In every run of operations within their preconditions, the readable bytes
and the retrieved strings are those of the queues, the indices are in order, no
assert fails, and `ensureWritableBytes` makes the room it is asked for. -/
theorem buffers_refine_queues [DecidableEq ι] (sizes : ι → ℕ)
    {ops : List (BufferOp ι)}
    (hready : EveryStep Buffers.step Buffers.Ready (Buffers.fresh sizes) ops) :
    let s := run Buffers.step (Buffers.fresh sizes) ops
    let t := run Queues.step { queues := fun _ => [] } ops
    s.asserts = true ∧ s.strings = t.strings ∧
      ∀ i, (s.buffers i).content = t.queues i ∧
        (s.buffers i).readerIndex ≤ (s.buffers i).writerIndex ∧
        (s.buffers i).writerIndex ≤ (s.buffers i).buffer.length ∧
        ∀ len, len ≤
          ((s.step (.ensureWritableBytes i len)).buffers i).writableBytes := by
  have h := run_simulation Queues.step Buffers.Refines
    (fun s t a hs ha => hs.step ha) (Buffers.refines_fresh sizes) hready
  refine ⟨h.asserts, h.strings, ?_⟩
  intro i
  have hi := h.represents i
  refine ⟨hi.content, hi.reader_le, hi.writer_le, ?_⟩
  intro len
  obtain ⟨b, hb, -, hlen⟩ := hi.ensureWritableBytes len
  simpa [Buffers.step, hb, Buffers.set] using hlen

/-- Operations on two buffers without room of their own. -/
def mixedOps : List (BufferOp Bool) :=
  [.append true (ascii "ab"), .prepend true (ascii "c"), .retrieve true 1,
    .readFd true (some (ascii "xyz")), .unwrite true 1, .swap true false]

theorem buffers_refine_queues_mixedOps :
    EveryStep Buffers.step Buffers.Ready (Buffers.fresh fun _ => 0)
        mixedOps ∧
      ((run Buffers.step (Buffers.fresh fun _ => 0) mixedOps).buffers
        false).content = ascii "abxy" := by
  have hready : EveryStep Buffers.step Buffers.Ready
      (Buffers.fresh fun _ => 0) mixedOps :=
    ⟨trivial, by decide, by decide, by decide, by decide, trivial, trivial⟩
  have hrefines := buffers_refine_queues (fun _ => 0) hready
  exact ⟨hready, (hrefines.2.2 false).1.trans (by decide)⟩

end MuduoHttp
