import MuduoHttp.Base.LocalTime
import MuduoHttp.Support.Endian
import MuduoHttp.Support.Throwing

/-!
# Zone files

`readTimeZoneFile` reads a compiled zone file into the data of a `TimeZone`.
Whatever it throws is caught and printed, and what it has stored by then is
kept.  A variable-length array of negative size, or an index out of the range
of a vector, has no result.
-/

namespace MuduoHttp

open Support

namespace TimeZone

inductive Thrown
  | logicError (what : Bytes)
  | undefined
  deriving DecidableEq

/-- The bytes that `fread` has not yet returned, and the data read so far. -/
structure Reading where
  file : Bytes
  data : Data := {}

abbrev FileM := EStateM Thrown Reading

/-- `fread` of `n` bytes, and the exception if there are fewer. -/
def fread (n : ℕ) (what : Bytes) : FileM Bytes := fun s =>
  let rest : Reading := { s with file := s.file.drop n }
  if n ≤ s.file.length then .ok (s.file.take n) rest
  else .error (.logicError what) rest

/-- `File::readBytes`. -/
def readBytes (n : ℤ) : FileM Bytes :=
  if n < 0 then throw .undefined else fread n.toNat (ascii "no enough data")

/-- `File::readInt32`; `be32toh` swaps the bytes. -/
def readInt32 : FileM ℤ := do
  let x ← fread 4 (ascii "bad int32_t data")
  return (byteSwap 4 (ofMemory 4 x)).toInt

/-- `File::readUInt8`. -/
def readUInt8 : FileM ℕ := do
  let x ← fread 1 (ascii "bad uint8_t data")
  return (x.headD 0).toNat

/-- `vector::reserve` of a size that was negative before its conversion. -/
def reserve (n : ℤ) : FileM Unit :=
  if n < 0 then throw (.logicError (ascii "vector::reserve")) else pure ()

def Data.pushLocaltime (data : Data) (loc : Localtime) : Data :=
  { data with localtimes := data.localtimes ++ [loc] }

def Data.pushTransition (data : Data) (x : Transition) : Data :=
  { data with transitions := data.transitions ++ [x] }

def readLocaltime : FileM Unit := do
  let gmtoff ← readInt32
  let isdst ← readUInt8
  let abbrind ← readUInt8
  modify fun s =>
    { s with data := s.data.pushLocaltime ⟨gmtoff, isdst ≠ 0, abbrind⟩ }

def addTransition (entry : ℤ × ℕ) : FileM Unit := fun s =>
  match s.data.localtimes[entry.2]? with
  | none => .error .undefined s
  | some loc =>
      let localtime := entry.1 + loc.gmtOffset
      let x : Transition := ⟨entry.1, localtime, entry.2⟩
      .ok () { s with data := s.data.pushTransition x }

def checkHead (head : Bytes) : FileM Unit :=
  if head ≠ ascii "TZif" then throw (.logicError (ascii "bad head"))
  else pure ()

/-- The `try` block of `detail::readTimeZoneFile`. -/
def readZone : FileM Unit := do
  let head ← readBytes 4
  checkHead head
  let _version ← readBytes 1
  let _reserved ← readBytes 15
  let _isgmtcnt ← readInt32
  let _isstdcnt ← readInt32
  let _leapcnt ← readInt32
  let timecnt ← readInt32
  let typecnt ← readInt32
  let charcnt ← readInt32
  reserve timecnt
  let trans ← collect readInt32 timecnt.toNat
  let localtimes ← collect readUInt8 timecnt.toNat
  let _ ← collect readLocaltime typecnt.toNat
  forEach addTransition (trans.zip localtimes)
  let abbreviation ← readBytes charcnt
  modify fun s => { s with data := { s.data with abbreviation := abbreviation } }

/-- What `readTimeZoneFile` returns, stores and prints. -/
structure Loaded where
  ok : Bool
  data : Data
  stderr : Bytes
  deriving DecidableEq

/-- `detail::readTimeZoneFile`; `fopen` may fail. -/
def readTimeZoneFile (zonefile : Option Bytes) (data : Data) : Option Loaded :=
  match zonefile with
  | none => some ⟨true, data, []⟩
  | some file =>
      match readZone ⟨file, data⟩ with
      | .ok _ s => some ⟨true, s.data, []⟩
      | .error (.logicError what) s => some ⟨true, s.data, what ++ [LF]⟩
      | .error .undefined _ => none

/-- `TimeZone::TimeZone(zonefile)`: the data, unless they are reset. -/
def ofFile (zonefile : Option Bytes) : Option (Option Data) :=
  (readTimeZoneFile zonefile {}).map fun loaded =>
    if loaded.ok then some loaded.data else none

/-! ## Reading what was written -/

/-- The `int32_t` in a file. -/
def int32 (z : ℤ) : Bytes := twosComplement 4 z

theorem fread_append (bytes rest : Bytes) (data : Data) (what : Bytes) :
    fread bytes.length what ⟨bytes ++ rest, data⟩ = .ok bytes ⟨rest, data⟩ := by
  simp [fread]

theorem readBytes_append {n : ℤ} (bytes : Bytes) (hn : bytes.length = n)
    (rest : Bytes) (data : Data) :
    readBytes n ⟨bytes ++ rest, data⟩ = .ok bytes ⟨rest, data⟩ := by
  rw [← hn, readBytes, if_neg (by omega), Int.toNat_natCast]
  exact fread_append bytes rest data _

theorem length_int32 (z : ℤ) : (int32 z).length = 4 := by
  simp [int32, twosComplement, bigEndian]

theorem readInt32_int32 {z : ℤ} (hle : -2 ^ 31 ≤ z) (hlt : z < 2 ^ 31)
    (rest : Bytes) (data : Data) :
    readInt32 ⟨int32 z ++ rest, data⟩ = .ok z ⟨rest, data⟩ := by
  have hfread := fread_append (int32 z) rest data (ascii "bad int32_t data")
  rw [length_int32] at hfread
  rw [readInt32, bind_of_ok hfread]
  have hz : (BitVec.ofInt 32 z).toInt = z :=
    BitVec.toInt_ofInt_eq_self (by decide) hle hlt
  have hword : ofMemory 4 (int32 z) = byteSwap 4 (BitVec.ofInt 32 z) := by
    have hbytes := bigEndian_toNat 4 (BitVec.ofInt 32 z)
    rw [hz] at hbytes
    rw [int32, ← hbytes, ← memory_byteSwap, ofMemory_memory]
  rw [hword, byteSwap_byteSwap, hz]
  rfl

theorem readUInt8_cons (b : Byte) (rest : Bytes) (data : Data) :
    readUInt8 ⟨b :: rest, data⟩ = .ok b.toNat ⟨rest, data⟩ := by
  have hfread : fread 1 (ascii "bad uint8_t data") ⟨b :: rest, data⟩ =
      .ok [b] ⟨rest, data⟩ := fread_append [b] rest data _
  rw [readUInt8, bind_of_ok hfread]
  rfl

theorem collect_append {α β : Type} {m : FileM α} (write : β → Bytes)
    (value : β → α)
    (step : Data → β → Data) (xs : List β)
    (hm : ∀ x ∈ xs, ∀ rest data,
      m ⟨write x ++ rest, data⟩ = .ok (value x) ⟨rest, step data x⟩)
    (rest : Bytes) (data : Data) :
    collect m xs.length ⟨xs.flatMap write ++ rest, data⟩ =
      .ok (xs.map value) ⟨rest, xs.foldl step data⟩ := by
  induction xs generalizing data with
  | nil => rfl
  | cons x xs ih =>
      rw [List.length_cons, collect, List.flatMap_cons, List.append_assoc,
        bind_of_ok (hm x List.mem_cons_self _ data),
        bind_of_ok (ih (fun y hy => hm y (List.mem_cons_of_mem x hy)) _)]
      rfl

/-! ## The format -/

def IsInt32 (z : ℤ) : Prop := -2 ^ 31 ≤ z ∧ z < 2 ^ 31

instance (z : ℤ) : Decidable (IsInt32 z) := inferInstanceAs (Decidable (_ ∧ _))

/-- A compiled zone file of the first version: the local times, and the times
of the transitions with the local times that they lead to. -/
structure ZoneFile where
  version : Byte
  reserved : Bytes
  isgmtcnt : ℤ
  isstdcnt : ℤ
  leapcnt : ℤ
  initial : Localtime
  others : List Localtime
  transitions : List (ℤ × Fin (others.length + 1))
  abbreviation : Bytes
  reserved_length : reserved.length = 15
  isgmtcnt_int32 : IsInt32 isgmtcnt
  isstdcnt_int32 : IsInt32 isstdcnt
  leapcnt_int32 : IsInt32 leapcnt
  others_length : others.length < 256
  offset_int32 : ∀ loc ∈ initial :: others, IsInt32 loc.gmtOffset
  arrbIdx_lt : ∀ loc ∈ initial :: others, loc.arrbIdx < 256
  arrbIdx_le : ∀ loc ∈ initial :: others, loc.arrbIdx ≤ abbreviation.length
  time_int32 : ∀ c ∈ transitions, IsInt32 c.1
  transitions_length : transitions.length < 2 ^ 31
  abbreviation_length : abbreviation.length < 2 ^ 31

namespace ZoneFile

variable (f : ZoneFile)

def localtimes : List Localtime := f.initial :: f.others

/-- The local time that a transition leads to. -/
def target (c : ℤ × Fin (f.others.length + 1)) : Localtime :=
  f.localtimes.get c.2

def zone : Zone where
  initial := f.initial
  changes := f.transitions.map fun c => (c.1, f.target c)

def localtimeBytes (loc : Localtime) : Bytes :=
  int32 loc.gmtOffset ++ [if loc.isDst then 1 else 0, loc.arrbIdx.toUInt8]

def indexBytes (c : ℤ × Fin (f.others.length + 1)) : Bytes :=
  [c.2.val.toUInt8]

/-- The bytes of the file, with what follows the abbreviations. -/
def bytes (rest : Bytes) : Bytes :=
  ascii "TZif" ++ ([f.version] ++ (f.reserved ++
    (int32 f.isgmtcnt ++ (int32 f.isstdcnt ++ (int32 f.leapcnt ++
      (int32 f.transitions.length ++ (int32 f.localtimes.length ++
        (int32 f.abbreviation.length ++
          (f.transitions.flatMap (fun c => int32 c.1) ++
            (f.transitions.flatMap f.indexBytes ++
              (f.localtimes.flatMap localtimeBytes ++
                (f.abbreviation ++ rest))))))))))))

/-- What is read from it. -/
def data : Data where
  transitions := f.transitions.map fun c =>
    ⟨c.1, c.1 + (f.target c).gmtOffset, c.2⟩
  localtimes := f.localtimes
  abbreviation := f.abbreviation

end ZoneFile

theorem readLocaltime_append {loc : Localtime} (hoffset : IsInt32 loc.gmtOffset)
    (harrb : loc.arrbIdx < 256) (rest : Bytes) (data : Data) :
    readLocaltime ⟨ZoneFile.localtimeBytes loc ++ rest, data⟩ =
      .ok () ⟨rest, data.pushLocaltime loc⟩ := by
  rw [readLocaltime, ZoneFile.localtimeBytes, List.append_assoc,
    bind_of_ok (readInt32_int32 hoffset.1 hoffset.2 _ data)]
  simp only [List.cons_append, List.nil_append]
  rw [bind_of_ok (readUInt8_cons _ _ data), bind_of_ok (readUInt8_cons _ _ data)]
  have hdst : decide ((if loc.isDst then 1 else 0 : Byte).toNat ≠ 0) =
      loc.isDst := by cases loc.isDst <;> rfl
  have hidx : loc.arrbIdx.toUInt8.toNat = loc.arrbIdx :=
    UInt8.toNat_ofNat_of_lt harrb
  rw [hdst, hidx]
  rfl

theorem foldl_pushLocaltime (locs : List Localtime) (data : Data) :
    locs.foldl Data.pushLocaltime data =
      { data with localtimes := data.localtimes ++ locs } := by
  induction locs generalizing data with
  | nil => rw [List.append_nil, List.foldl_nil]
  | cons loc locs ih =>
      rw [List.foldl_cons, ih, Data.pushLocaltime, List.append_assoc]
      rfl

namespace ZoneFile

variable (f : ZoneFile)

theorem addTransition_ok {c : ℤ × Fin (f.others.length + 1)} {data : Data}
    (hdata : data.localtimes = f.localtimes) (file : Bytes) :
    addTransition (c.1, c.2.val) ⟨file, data⟩ =
      .ok () ⟨file,
        data.pushTransition ⟨c.1, c.1 + (f.target c).gmtOffset, c.2⟩⟩ := by
  have hget : data.localtimes[c.2.val]? = some (f.target c) := by
    rw [hdata]
    exact List.getElem?_eq_getElem c.2.isLt
  simp only [addTransition, hget]

theorem forEach_addTransition (cs : List (ℤ × Fin (f.others.length + 1)))
    (data : Data) (hdata : data.localtimes = f.localtimes) (file : Bytes) :
    forEach addTransition (cs.map fun c => (c.1, c.2.val)) ⟨file, data⟩ =
      .ok () ⟨file,
        { data with
          transitions := data.transitions ++ cs.map fun c =>
            ⟨c.1, c.1 + (f.target c).gmtOffset, c.2⟩ }⟩ := by
  induction cs generalizing data with
  | nil =>
      rw [List.map_nil, List.map_nil, List.append_nil]
      rfl
  | cons c cs ih =>
      rw [List.map_cons, forEach, bind_of_ok (f.addTransition_ok hdata file),
        ih (data.pushTransition _) hdata]
      simp only [Data.pushTransition, List.append_assoc, List.map_cons,
        List.cons_append, List.nil_append]

theorem index_toNat (c : ℤ × Fin (f.others.length + 1)) :
    c.2.val.toUInt8.toNat = c.2.val := by
  have hlt := f.others_length
  have hidx : c.2.val < 256 := by omega
  exact UInt8.toNat_ofNat_of_lt hidx

theorem collect_times (rest : Bytes) (data : Data) :
    collect readInt32 f.transitions.length
        ⟨f.transitions.flatMap (fun c => int32 c.1) ++ rest, data⟩ =
      .ok (f.transitions.map fun c => c.1) ⟨rest, data⟩ := by
  rw [collect_append _ (fun c => c.1) (fun data _ => data)
    f.transitions fun c hc rest data => readInt32_int32 (f.time_int32 c hc).1
      (f.time_int32 c hc).2 rest data]
  rw [List.foldl_fixed]

theorem readUInt8_indexBytes (c : ℤ × Fin (f.others.length + 1)) (rest : Bytes)
    (data : Data) :
    readUInt8 ⟨f.indexBytes c ++ rest, data⟩ = .ok c.2.val ⟨rest, data⟩ := by
  have hread := readUInt8_cons c.2.val.toUInt8 rest data
  rwa [f.index_toNat] at hread

theorem collect_indices (rest : Bytes) (data : Data) :
    collect readUInt8 f.transitions.length
        ⟨f.transitions.flatMap f.indexBytes ++ rest, data⟩ =
      .ok (f.transitions.map fun c => c.2.val) ⟨rest, data⟩ := by
  rw [collect_append _ (fun c => c.2.val) (fun data _ => data)
    f.transitions fun c _ rest data => f.readUInt8_indexBytes c rest data]
  rw [List.foldl_fixed]

theorem collect_localtimes (rest : Bytes) (data : Data) :
    collect readLocaltime f.localtimes.length
        ⟨f.localtimes.flatMap localtimeBytes ++ rest, data⟩ =
      .ok (f.localtimes.map fun _ => ())
        ⟨rest, { data with localtimes := data.localtimes ++ f.localtimes }⟩ := by
  rw [collect_append _ (fun _ => ()) Data.pushLocaltime f.localtimes
    fun loc hloc rest data => readLocaltime_append (f.offset_int32 loc hloc)
      (f.arrbIdx_lt loc hloc) rest data]
  rw [foldl_pushLocaltime]

theorem readZone_bytes (rest : Bytes) :
    readZone ⟨f.bytes rest, {}⟩ = .ok () ⟨rest, f.data⟩ := by
  have hcheck (s : Reading) : checkHead (ascii "TZif") s = .ok () s := by
    rw [checkHead, if_neg (fun h => h rfl)]
    rfl
  have hreserve (s : Reading) :
      reserve f.transitions.length s = .ok () s := by
    rw [reserve, if_neg (by omega)]
    rfl
  have htypes : f.localtimes.length = f.others.length + 1 := rfl
  have hlt := f.others_length
  have htimes := f.transitions_length
  have hchars := f.abbreviation_length
  have hhead : ((ascii "TZif").length : ℤ) = 4 := by decide
  have hreserved : (f.reserved.length : ℤ) = 15 := by
    rw [f.reserved_length]
    rfl
  rw [readZone, bytes, bind_of_ok (readBytes_append _ hhead _ _),
    bind_of_ok (hcheck _),
    bind_of_ok (readBytes_append (n := 1) [f.version] rfl _ _),
    bind_of_ok (readBytes_append _ hreserved _ _)]
  rw [bind_of_ok (readInt32_int32 f.isgmtcnt_int32.1 f.isgmtcnt_int32.2 _ _),
    bind_of_ok (readInt32_int32 f.isstdcnt_int32.1 f.isstdcnt_int32.2 _ _),
    bind_of_ok (readInt32_int32 f.leapcnt_int32.1 f.leapcnt_int32.2 _ _),
    bind_of_ok (readInt32_int32 (by omega) (by omega) _ _),
    bind_of_ok (readInt32_int32 (by omega) (by omega) _ _),
    bind_of_ok (readInt32_int32 (by omega) (by omega) _ _)]
  rw [bind_of_ok (hreserve _), Int.toNat_natCast,
    bind_of_ok (f.collect_times _ _), bind_of_ok (f.collect_indices _ _),
    Int.toNat_natCast, bind_of_ok (f.collect_localtimes _ _), List.zip_map',
    bind_of_ok (f.forEach_addTransition _ _ rfl _),
    bind_of_ok (readBytes_append _ rfl _ _)]
  rfl

theorem data_describes : f.data.Describes f.zone where
  initial := rfl
  changes := by
    refine List.forall₂_map_left_iff.mpr (List.forall₂_map_right_iff.mpr ?_)
    refine List.forall₂_same.mpr fun c _ => ⟨rfl, rfl, ?_⟩
    exact List.getElem?_eq_getElem c.2.isLt
  abbreviation := f.arrbIdx_le

end ZoneFile

/-! ## Whatever the file holds -/

/-- The transitions lead to local times of the data, and their local times
are right. -/
def Data.Linked (data : Data) : Prop :=
  ∀ x ∈ data.transitions, ∃ loc,
    data.localtimes[x.localtimeIdx]? = some loc ∧
      x.localtime = x.gmttime + loc.gmtOffset

theorem Data.Linked.pushLocaltime {data : Data} (h : data.Linked)
    (loc : Localtime) : (data.pushLocaltime loc).Linked := by
  intro x hx
  obtain ⟨loc', hloc, hlocal⟩ := h x hx
  refine ⟨loc', ?_, hlocal⟩
  obtain ⟨hlt, hget⟩ := List.getElem?_eq_some_iff.mp hloc
  rw [← hloc]
  exact List.getElem?_append_left hlt

theorem Data.Linked.pushTransition {data : Data} (h : data.Linked)
    {time : ℤ} {idx : ℕ} {loc : Localtime}
    (hloc : data.localtimes[idx]? = some loc) :
    (data.pushTransition ⟨time, time + loc.gmtOffset, idx⟩).Linked := by
  intro x hx
  obtain hold | hnew := List.mem_append.mp hx
  · exact h x hold
  · rw [List.mem_singleton.mp hnew]
    exact ⟨loc, hloc, rfl⟩

def Reading.Linked (s : Reading) : Prop := s.data.Linked

theorem fread_keeps (n : ℕ) (what : Bytes) :
    Keeps Reading.Linked (fread n what) := by
  intro s hs
  unfold fread
  split_ifs
  · exact hs
  · exact hs

theorem readBytes_keeps (n : ℤ) : Keeps Reading.Linked (readBytes n) := by
  unfold readBytes
  split_ifs
  · exact Keeps.throw _
  · exact fread_keeps _ _

theorem readInt32_keeps : Keeps Reading.Linked readInt32 :=
  (fread_keeps _ _).bind fun _ => Keeps.pure _

theorem readUInt8_keeps : Keeps Reading.Linked readUInt8 :=
  (fread_keeps _ _).bind fun _ => Keeps.pure _

theorem readLocaltime_keeps : Keeps Reading.Linked readLocaltime :=
  readInt32_keeps.bind fun _ => readUInt8_keeps.bind fun _ =>
    readUInt8_keeps.bind fun _ => Keeps.modify fun _ hs => hs.pushLocaltime _

theorem addTransition_keeps (entry : ℤ × ℕ) :
    Keeps Reading.Linked (addTransition entry) := by
  intro s hs
  unfold addTransition
  split
  · exact hs
  · rename_i loc hloc
    exact Data.Linked.pushTransition hs hloc

theorem checkHead_keeps (head : Bytes) :
    Keeps Reading.Linked (checkHead head) := by
  unfold checkHead
  split_ifs
  · exact Keeps.throw _
  · exact Keeps.pure _

theorem reserve_keeps (n : ℤ) : Keeps Reading.Linked (reserve n) := by
  unfold reserve
  split_ifs
  · exact Keeps.throw _
  · exact Keeps.pure _

theorem readZone_keeps : Keeps Reading.Linked readZone :=
  (readBytes_keeps _).bind fun _ => (checkHead_keeps _).bind fun _ =>
    (readBytes_keeps _).bind fun _ => (readBytes_keeps _).bind fun _ =>
    readInt32_keeps.bind fun _ => readInt32_keeps.bind fun _ =>
    readInt32_keeps.bind fun _ => readInt32_keeps.bind fun _ =>
    readInt32_keeps.bind fun _ => readInt32_keeps.bind fun _ =>
    (reserve_keeps _).bind fun _ => (readInt32_keeps.collect _).bind fun _ =>
    (readUInt8_keeps.collect _).bind fun _ =>
    (readLocaltime_keeps.collect _).bind fun _ =>
    (Keeps.forEach addTransition_keeps _).bind fun _ =>
    (readBytes_keeps _).bind fun _ => Keeps.modify fun _ hs => hs

theorem ofFile_linked {zonefile : Option Bytes} {data : Option Data}
    (h : ofFile zonefile = some data) : ∃ d, data = some d ∧ d.Linked := by
  have hempty : ({} : Data).Linked := by simp [Data.Linked]
  cases zonefile with
  | none =>
      cases h
      exact ⟨_, rfl, hempty⟩
  | some file =>
      have hkeeps := readZone_keeps ⟨file, {}⟩ hempty
      unfold ofFile readTimeZoneFile at h
      cases hrun : readZone ⟨file, {}⟩ with
      | ok u s =>
          rw [hrun] at hkeeps
          simp only [hrun] at h
          cases h
          exact ⟨_, rfl, hkeeps⟩
      | error e s =>
          rw [hrun] at hkeeps
          simp only [hrun] at h
          cases e with
          | logicError what =>
              cases h
              exact ⟨_, rfl, hkeeps⟩
          | undefined => cases h

/-- A file of the format is read into data that describe its zone, whatever
follows its abbreviations.  Whatever file is given, or none: the `TimeZone`
counts as valid, and its transitions lead to local times that it has. -/
theorem zone_file :
    (∀ (f : ZoneFile) (rest : Bytes),
      ofFile (some (f.bytes rest)) = some (some f.data) ∧
        f.data.Describes f.zone) ∧
    ∀ (zonefile : Option Bytes) (data : Option Data),
      ofFile zonefile = some data → ∃ d, data = some d ∧ d.Linked := by
  refine ⟨fun f rest => ⟨?_, f.data_describes⟩, fun _ _ => ofFile_linked⟩
  simp only [ofFile, readTimeZoneFile, f.readZone_bytes rest]
  rfl

/-- New York in the year 2013: the summer time begins and ends. -/
def newYork : ZoneFile where
  version := 50
  reserved := List.replicate 15 0
  isgmtcnt := 0
  isstdcnt := 0
  leapcnt := 0
  initial := ⟨-18000, false, 4⟩
  others := [⟨-14400, true, 0⟩]
  transitions := [(1362898800, 1), (1383458400, 0)]
  abbreviation := ascii "EDT" ++ [0] ++ ascii "EST" ++ [0]
  reserved_length := rfl
  isgmtcnt_int32 := by decide
  isstdcnt_int32 := by decide
  leapcnt_int32 := by decide
  others_length := by decide
  offset_int32 := by decide
  arrbIdx_lt := by decide
  arrbIdx_le := by decide
  time_int32 := by decide
  transitions_length := by decide
  abbreviation_length := by decide

/-- The second version of the format has more behind the abbreviations. -/
theorem zone_file_newYork :
    ofFile (some (newYork.bytes (ascii "TZif2"))) = some (some newYork.data) ∧
      newYork.data.Describes newYork.zone :=
  zone_file.1 newYork (ascii "TZif2")

end TimeZone

end MuduoHttp
