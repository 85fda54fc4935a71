import TntPub.ConnectionInput

namespace TntPub

open Framing

/-- One read of a socket, and what `_peer.eof()` says when `endRead` has delivered the bytes and
when the next `beginRead` is done. -/
structure Read where
  bytes : Bytes
  eofInRead : Bool := false
  eofInBegin : Bool := false
deriving DecidableEq

/-- Why `readMessage` throws: the stream has ended, or an exception of the deserializer. -/
inductive ReadFailure
  | inputStreamFailed
  | thrown (i : Interrupt)
deriving DecidableEq

def ReadFailure.what : ReadFailure → Option String
  | inputStreamFailed => some "input stream failed in pubsub client"
  | thrown (.exception e) => e.what
  | thrown .useAfterFree => none

/-- A client that reads with `readMessage`, and the reads its socket has yet to make. -/
structure Reader where
  reads : List Read
  deserializer : Deserializer := {}
  dataMessage : DataMessage := {}

/-- `Client::readMessage`. There is no result when it waits for a read that never comes. -/
def readMessage (reads : List Read) (d : Deserializer) (dataMessage : DataMessage) :
    Option (Except ReadFailure DataMessage × Reader) :=
  let keep (m : DataMessage) : Call DataMessage Unit := set m
  match Deserializer.processMessage keep noSlots (d, dataMessage) with
  | .ok true (d, m) => some (.ok m, ⟨reads, d, m⟩)
  | .error e (d, m) => some (.error (.thrown e), ⟨reads, d, m⟩)
  | .ok false (d, m) =>
    match reads with
    | [] => none
    | r :: reads =>
      let d := d.addData r.bytes r.bytes.length
      if r.eofInRead || r.eofInBegin then some (.error .inputStreamFailed, ⟨reads, d, m⟩)
      else readMessage reads d m

/-- Calls of `readMessage`, one after the other, return these messages before one throws. -/
inductive CallsReturn : Reader → List DataMessage → ReadFailure → Prop
  | failed {r r' f} : readMessage r.reads r.deserializer r.dataMessage = some (.error f, r') →
      CallsReturn r [] f
  | returned {r r' m ms f} :
      readMessage r.reads r.deserializer r.dataMessage = some (.ok m, r') →
      CallsReturn r' ms f → CallsReturn r (m :: ms) f

/-- When the end of the stream is noticed: with a final empty read, together with the last
bytes, or in the `beginRead` behind them. -/
inductive Ending
  | emptyRead
  | lastRead (bytes : Bytes)
  | nextBegin (bytes : Bytes)

namespace Ending

def read : Ending → Read
  | emptyRead => { bytes := [], eofInRead := true }
  | lastRead bytes => { bytes := bytes, eofInRead := true }
  | nextBegin bytes => { bytes := bytes, eofInBegin := true }

def bytes (ending : Ending) : Bytes := ending.read.bytes

theorem read_eof (ending : Ending) :
    (ending.read.eofInRead || ending.read.eofInBegin) = true := by
  cases ending <;> rfl

end Ending

def readsOf (chunks : List Bytes) (ending : Ending) : List Read :=
  chunks.map (fun bytes => { bytes := bytes }) ++ [ending.read]

/-- The same reads as events for `Client::onInput`. When `beginRead` finds the end of the
stream, one more event comes, with nothing to read. -/
def Client.onReads (c : Client) : List Read → Client
  | [] => c
  | r :: reads =>
    if r.eofInRead then c.onInput r.bytes .eof
    else if r.eofInBegin then (c.onInput r.bytes .more).onInput [] .eof
    else (c.onInput r.bytes .more).onReads reads

section Streams

variable {version1Flag : Bool} {xs ys : Bytes} {ms : List DataMessage}

theorem frontUnsigned_eq_front (version1Flag : Bool) (xs : Bytes) :
    frontUnsigned version1Flag xs =
      (framer version1Flag).front (xs.take (toUnsigned xs.length)) := by
  have hle : toUnsigned xs.length ≤ xs.length := Nat.mod_le _ _
  have hlen : (xs.take (toUnsigned xs.length)).length = toUnsigned xs.length :=
    List.length_take_of_le hle
  have hlocal : parseMessage version1Flag
      (xs.take (toUnsigned xs.length) ++ xs.drop (toUnsigned xs.length))
      (xs.take (toUnsigned xs.length)).length = _ := parseMessage_local _
  rw [List.take_append_drop, hlen] at hlocal
  rw [frontUnsigned, hlocal]
  show _ = parseMessage version1Flag (xs.take (toUnsigned xs.length)) (xs.take _).length
  rw [hlen]

/-- However many of the collected bytes are looked at, the front of a stream of frames is a
frame or waited for. -/
theorem frontUnsigned_of_prefix (version1Flag : Bool) (hms : ∀ m ∈ ms, m.Encodable)
    (h : xs <+: frames ms) :
    frontUnsigned version1Flag xs = .incomplete ∨
      ∃ m ms' ys, ms = m :: ms' ∧ xs = m.frame ++ ys ∧ ys <+: frames ms' ∧
        frontUnsigned version1Flag xs = .frame m m.frame.length := by
  have hprefix : xs.take (toUnsigned xs.length) <+: frames ms := (List.take_prefix _ _).trans h
  rw [frontUnsigned_eq_front]
  rcases Codec.front_of_prefix (C := codec version1Flag) hms hprefix with
    ⟨hf, -⟩ | ⟨m, ms', ys, rfl, heq, -, hf⟩
  · exact .inl hf
  · have hwhole : m.frame <+: xs :=
      (List.prefix_append m.frame ys).trans (heq ▸ List.take_prefix _ _)
    obtain ⟨zs, rfl⟩ := hwhole
    rw [frames_cons] at h
    exact .inr ⟨m, ms', zs, rfl, rfl, (List.prefix_append_right_inj _).mp h, hf⟩

theorem drainFuel_of_prefix {fuel : Nat} (hms : ∀ m ∈ ms, m.Encodable)
    (hfuel : xs.length < fuel) (h : xs ++ ys <+: frames ms) :
    (drainFuel (frontUnsigned version1Flag) fuel xs).error = none ∧
      frontUnsigned version1Flag (drainFuel (frontUnsigned version1Flag) fuel xs).rest =
        .incomplete ∧
      ∃ left, (∀ m ∈ left, m.Encodable) ∧
        (drainFuel (frontUnsigned version1Flag) fuel xs).rest ++ ys <+: frames left := by
  induction fuel generalizing xs ms with
  | zero => omega
  | succ fuel ih =>
    have hxs : xs <+: frames ms := (List.prefix_append xs ys).trans h
    rcases frontUnsigned_of_prefix version1Flag hms hxs with
      hf | ⟨m, ms', zs, rfl, rfl, -, hf⟩
    · simp only [drainFuel, hf]
      exact ⟨trivial, trivial, ms, hms, h⟩
    · rw [frames_cons, List.append_assoc] at h
      have hpos := (hms m List.mem_cons_self).frame_length
      have hsize := m.sizeof_le_messageLength
      rw [Header.sizeof] at hsize
      rw [List.length_append] at hfuel
      have hrest := ih (fun k hk => hms k (List.mem_cons_of_mem m hk))
        (by omega : zs.length < fuel) ((List.prefix_append_right_inj _).mp h)
      simp only [drainFuel, hf, List.drop_left]
      exact hrest

end Streams

section Calls

variable {reads : List Read} {d : Deserializer} {last : DataMessage} {ms : List DataMessage}
  {f : ReadFailure}

theorem readMessage_frame {m : DataMessage} {n : Nat}
    (hf : frontUnsigned d.version1Flag d.inputData = .frame m n) :
    readMessage reads d last =
      some (.ok m, ⟨reads, { d with inputData := d.inputData.drop n }, m⟩) := by
  have hstep : Deserializer.processMessage (fun m => set m) noSlots (d, last) = _ :=
    Deserializer.processMessage_frame hf
  have hset : announce (fun m => set m) noSlots m last = .ok () m := rfl
  rw [hset] at hstep
  unfold readMessage
  simp only [hstep]

theorem readMessage_incomplete {r : Read}
    (hf : frontUnsigned d.version1Flag d.inputData = .incomplete) :
    readMessage (r :: reads) d last =
      if r.eofInRead || r.eofInBegin then
        some (.error .inputStreamFailed, ⟨reads, d.addData r.bytes r.bytes.length, last⟩)
      else readMessage reads (d.addData r.bytes r.bytes.length) last := by
  have hstep : Deserializer.processMessage (fun m => set m) noSlots (d, last) =
      .ok false (d, last) := Deserializer.processMessage_incomplete hf
  rw [readMessage]
  simp only [hstep]

theorem callsReturn_congr {r r' : Reader} (h : readMessage r.reads r.deserializer r.dataMessage =
    readMessage r'.reads r'.deserializer r'.dataMessage) :
    CallsReturn r ms f ↔ CallsReturn r' ms f := by
  constructor
  · intro hcalls
    cases hcalls with
    | failed hr => exact .failed (h ▸ hr)
    | returned hr hrest => exact .returned (h ▸ hr) hrest
  · intro hcalls
    cases hcalls with
    | failed hr => exact .failed (h.symm ▸ hr)
    | returned hr hrest => exact .returned (h.symm ▸ hr) hrest

theorem callsReturn_returned_iff {r r' : Reader} {m : DataMessage}
    (h : readMessage r.reads r.deserializer r.dataMessage = some (.ok m, r')) :
    CallsReturn r ms f ↔ ∃ ms', ms = m :: ms' ∧ CallsReturn r' ms' f := by
  constructor
  · intro hcalls
    cases hcalls with
    | failed hr => rw [h] at hr; cases hr
    | returned hr hrest =>
      rw [h] at hr
      cases hr
      exact ⟨_, rfl, hrest⟩
  · rintro ⟨ms', rfl, hrest⟩
    exact .returned h hrest

theorem callsReturn_failed_iff {r r' : Reader} {f' : ReadFailure}
    (h : readMessage r.reads r.deserializer r.dataMessage = some (.error f', r')) :
    CallsReturn r ms f ↔ ms = [] ∧ f = f' := by
  constructor
  · intro hcalls
    cases hcalls with
    | failed hr =>
      rw [h] at hr
      cases hr
      exact ⟨rfl, rfl⟩
    | returned hr hrest => rw [h] at hr; cases hr
  · rintro ⟨rfl, rfl⟩
    exact .failed h

/-- The messages that are collected are returned before a call waits for a read. -/
theorem callsReturn_drain (reads : List Read) (fuel : Nat) (d : Deserializer) (last : DataMessage) :
    ∃ last', ∀ ms f, CallsReturn ⟨reads, d, last⟩ ms f ↔
      ∃ ms', ms = (drainFuel (frontUnsigned d.version1Flag) fuel d.inputData).messages ++ ms' ∧
        CallsReturn ⟨reads, { d with
          inputData := (drainFuel (frontUnsigned d.version1Flag) fuel d.inputData).rest },
          last'⟩ ms' f := by
  induction fuel generalizing d last with
  | zero => exact ⟨last, fun ms f => by simp [drainFuel]⟩
  | succ fuel ih =>
    cases hf : frontUnsigned d.version1Flag d.inputData with
    | incomplete => exact ⟨last, fun ms f => by simp [drainFuel, hf]⟩
    | fail e => exact ⟨last, fun ms f => by simp [drainFuel, hf]⟩
    | frame m n =>
      obtain ⟨last', hrest⟩ := ih { d with inputData := d.inputData.drop n } m
      refine ⟨last', fun ms f => ?_⟩
      rw [callsReturn_returned_iff (readMessage_frame hf)]
      simp only [hrest, drainFuel, hf, Drained.prepend_messages, Drained.prepend_rest]
      constructor
      · rintro ⟨_, rfl, ms', rfl, hcalls⟩
        exact ⟨ms', rfl, hcalls⟩
      · rintro ⟨ms', rfl, hcalls⟩
        exact ⟨_, rfl, ms', rfl, hcalls⟩

end Calls

section Runs

variable {d : Deserializer} {c : Client} {chunks : List Bytes}
  {ms : List DataMessage}

/-- Within a stream of frames each read is taken without an exception, and waits behind it. -/
theorem takesAll_of_frames {input ys : Bytes} (hms : ∀ m ∈ ms, m.Encodable)
    (h : d.inputData ++ (input ++ ys) <+: frames ms) :
    (d.takesAll input).error = none ∧
      frontUnsigned d.version1Flag (d.takesAll input).rest = .incomplete ∧
      ∃ left, (∀ m ∈ left, m.Encodable) ∧ (d.takesAll input).rest ++ ys <+: frames left := by
  rw [← List.append_assoc] at h
  exact drainFuel_of_prefix hms (Nat.lt_succ_self _) h

theorem collectChunks_cons {input : Bytes} {d' : Deserializer} {taken : List DataMessage}
    (herr : (d.takesAll input).error = none)
    (h : ∀ log, Deserializer.collectChunks record noSlots chunks
      ({ d with inputData := (d.takesAll input).rest }, log) = .ok () (d', log ++ taken))
    (log : List DataMessage) :
    Deserializer.collectChunks record noSlots (input :: chunks) (d, log) =
      .ok () (d', log ++ ((d.takesAll input).messages ++ taken)) := by
  obtain ⟨count, hcollect⟩ := collect_ok log herr
  rw [Deserializer.collectChunks, Call.bind_ok hcollect, h, List.append_assoc]

/-- What the calls return are the messages of all reads but the last. -/
theorem callsReturn_readsOf (last : DataMessage) (ending : Ending) (hms : ∀ m ∈ ms, m.Encodable)
    (h : d.inputData ++ (chunks.flatten ++ ending.bytes) <+: frames ms)
    (hwait : frontUnsigned d.version1Flag d.inputData = .incomplete) :
    ∃ d' taken,
      (∀ log, Deserializer.collectChunks record noSlots chunks (d, log) =
        .ok () (d', log ++ taken)) ∧
      (d'.version1Flag = d.version1Flag ∧ (d'.takesAll ending.bytes).error = none) ∧
      ∀ returned f, CallsReturn ⟨readsOf chunks ending, d, last⟩ returned f ↔
        returned = taken ∧ f = .inputStreamFailed := by
  induction chunks generalizing d last ms with
  | nil =>
    have htaken : d.inputData ++ (ending.bytes ++ []) <+: frames ms := by
      rwa [List.append_nil]
    refine ⟨d, [], fun log => by rw [List.append_nil]; rfl,
      ⟨rfl, (takesAll_of_frames hms htaken).1⟩, fun returned f => ?_⟩
    have hread : readMessage [ending.read] d last = _ := readMessage_incomplete hwait
    rw [if_pos ending.read_eof] at hread
    exact callsReturn_failed_iff hread
  | cons input chunks ih =>
    rw [List.flatten_cons, List.append_assoc] at h
    obtain ⟨herr, hrest, left, hleft, hprefix⟩ := takesAll_of_frames hms h
    have hread : readMessage (readsOf (input :: chunks) ending) d last =
        readMessage (readsOf chunks ending) (d.addData input input.length) last :=
      readMessage_incomplete hwait
    rw [Deserializer.addData_all] at hread
    obtain ⟨last', hdrain⟩ := callsReturn_drain (readsOf chunks ending)
      ((d.inputData ++ input).length + 1) { d with inputData := d.inputData ++ input } last
    obtain ⟨d', taken, hchunks, hlast, hcalls⟩ := @ih { d with
      inputData := (d.takesAll input).rest } left last' hleft hprefix hrest
    refine ⟨d', (d.takesAll input).messages ++ taken, collectChunks_cons herr hchunks, hlast,
      fun returned f => ?_⟩
    have hsame : CallsReturn ⟨readsOf (input :: chunks) ending, d, last⟩ returned f ↔
        CallsReturn ⟨readsOf chunks ending, _, last⟩ returned f := callsReturn_congr hread
    rw [hsame, hdrain]
    constructor
    · rintro ⟨ms', rfl, hms'⟩
      obtain ⟨rfl, rfl⟩ := (hcalls ms' f).mp hms'
      exact ⟨rfl, rfl⟩
    · rintro ⟨rfl, rfl⟩
      exact ⟨taken, rfl, (hcalls taken _).mpr ⟨rfl, rfl⟩⟩

theorem onInput_taken (input : Bytes) (inputEnd : InputEnd)
    (herr : (c.deserializer.takesAll input).error = none) :
    (c.onInput input inputEnd).exchange.dispatched =
        c.exchange.dispatched ++ (c.deserializer.takesAll input).messages ∧
      (c.onInput input inputEnd).deserializer =
        { c.deserializer with inputData := (c.deserializer.takesAll input).rest } := by
  obtain ⟨last, hlast⟩ := Client.onInput_eq c input inputEnd
  rw [hlast, herr]
  cases inputEnd with
  | more => exact ⟨rfl, rfl⟩
  | eof => exact ⟨rfl, rfl⟩
  | failed unreported => exact ⟨rfl, rfl⟩

/-- The event that comes with the end of the stream finds nothing to dispatch. -/
theorem onReads_ending (ending : Ending)
    (herr : (c.deserializer.takesAll ending.bytes).error = none)
    (hrest : frontUnsigned c.deserializer.version1Flag
      (c.deserializer.takesAll ending.bytes).rest = .incomplete) :
    (c.onReads [ending.read]).exchange.dispatched =
      c.exchange.dispatched ++ (c.deserializer.takesAll ending.bytes).messages := by
  cases ending with
  | emptyRead => exact (onInput_taken _ .eof herr).1
  | lastRead bytes => exact (onInput_taken _ .eof herr).1
  | nextBegin bytes =>
    obtain ⟨hdispatched, hd⟩ := onInput_taken _ .more herr
    have hnone : (c.onInput bytes .more).deserializer.takesAll [] =
        ⟨[], (c.deserializer.takesAll bytes).rest, none⟩ := by
      have hwait : frontUnsigned (c.onInput bytes .more).deserializer.version1Flag
          (c.onInput bytes .more).deserializer.inputData = .incomplete := by
        show frontUnsigned
          (c.onInput (Ending.nextBegin bytes).bytes .more).deserializer.version1Flag
          (c.onInput (Ending.nextBegin bytes).bytes .more).deserializer.inputData = _
        rw [hd]
        exact hrest
      rw [Deserializer.takesAll, List.append_nil, drainFuel, hwait]
      show Drained.mk _ (c.onInput (Ending.nextBegin bytes).bytes .more).deserializer.inputData _ =
        _
      rw [hd]
      rfl
    have hlast := (onInput_taken (c := c.onInput bytes .more) [] .eof (by rw [hnone])).1
    rw [hnone, List.append_nil] at hlast
    exact hlast.trans hdispatched

theorem onReads_readsOf (chunks : List Bytes) (ending : Ending) (hms : ∀ m ∈ ms, m.Encodable)
    (h : c.deserializer.inputData ++ (chunks ++ [ending.bytes]).flatten <+: frames ms) :
    ∃ d' taken,
      (∀ log, Deserializer.collectChunks record noSlots (chunks ++ [ending.bytes])
        (c.deserializer, log) = .ok () (d', log ++ taken)) ∧
      (c.onReads (readsOf chunks ending)).exchange.dispatched =
        c.exchange.dispatched ++ taken := by
  induction chunks generalizing c ms with
  | nil =>
    obtain ⟨herr, hrest, -⟩ := takesAll_of_frames hms h
    have hnone : ∀ log, Deserializer.collectChunks record noSlots [] ({ c.deserializer with
        inputData := (c.deserializer.takesAll ending.bytes).rest }, log) = .ok () (_, log ++ []) :=
      fun log => by rw [List.append_nil]; rfl
    refine ⟨_, _, collectChunks_cons herr hnone, ?_⟩
    rw [List.append_nil]
    exact onReads_ending ending herr hrest
  | cons input chunks ih =>
    rw [List.cons_append, List.flatten_cons] at h
    obtain ⟨herr, -, left, hleft, hprefix⟩ := takesAll_of_frames hms h
    obtain ⟨hdispatched, hd⟩ := onInput_taken _ .more herr
    obtain ⟨d', taken, hchunks, hreads⟩ := ih (c := c.onInput input .more) hleft
      (by rw [hd]; exact hprefix)
    rw [hd] at hchunks
    refine ⟨d', _, collectChunks_cons herr hchunks, ?_⟩
    rw [← List.append_assoc, ← hdispatched]
    exact hreads

/-- What the deserializer keeps is waited for with more bytes exactly if these complete
no message. -/
theorem takesAll_nil_iff {input : Bytes} (herr : (d.takesAll input).error = none) :
    (d.takesAll input).messages = [] ↔
      frontUnsigned d.version1Flag (d.inputData ++ input) = .incomplete := by
  rw [Deserializer.takesAll, drainFuel] at herr ⊢
  split at herr
  next hf => simp [hf]
  next e hf => cases herr
  next m n hf => simp [hf, Drained.prepend]

end Runs

theorem collectChunks_record {version1Flag : Bool} {chunks : List Bytes}
    (hbelow : Deserializer.StaysBelow version1Flag [] chunks) {d : Deserializer}
    {ms : List DataMessage}
    (h : Deserializer.collectChunks record noSlots chunks (⟨[], version1Flag⟩, []) =
      .ok () (d, ms)) : ((framer version1Flag).drain chunks.flatten).messages = ms := by
  have hcollect : outcome (Deserializer.collectChunks record noSlots chunks
      (⟨[], version1Flag⟩, [])) = _ :=
    Deserializer.outcome_collectChunks (framer version1Flag).front_nil hbelow
  have hadvance : outcome (Deserializer.advanceChunks record noSlots chunks
      (⟨[], version1Flag⟩, [])) = _ :=
    Deserializer.outcome_advanceChunks (framer version1Flag).front_nil hbelow
  rw [h, ← hadvance] at hcollect
  rw [((advanceChunks_record_iff hbelow).mp hcollect.symm).1]

/-- No further frame of a stream ends in the bytes behind `xs` if no further one is found. -/
theorem forall_frames_le_iff (version1Flag : Bool) {xs ys : Bytes} {ms : List DataMessage}
    (hms : ∀ m ∈ ms, m.Encodable) (h : xs ++ ys <+: frames ms) :
    (∀ k ≤ ms.length, (frames (ms.take k)).length ≤ (xs ++ ys).length →
        (frames (ms.take k)).length ≤ xs.length) ↔
      ((framer version1Flag).drain (xs ++ ys)).messages.length ≤
        ((framer version1Flag).drain xs).messages.length := by
  have hxs : xs <+: frames ms := (List.prefix_append xs ys).trans h
  obtain ⟨taken, left, rest, rfl, -, -, hdrain⟩ :=
    Codec.split_of_prefix (C := codec version1Flag) hms h
  have hwhole : ∀ k ≤ (taken ++ left).length, (frames ((taken ++ left).take k)).length ≤
      (xs ++ ys).length ↔ k ≤ ((framer version1Flag).drain (xs ++ ys)).messages.length :=
    fun k hk => Codec.encodeAll_take_le_iff (C := codec version1Flag) hms h hk
  have hfirst : ∀ k ≤ (taken ++ left).length, (frames ((taken ++ left).take k)).length ≤
      xs.length ↔ k ≤ ((framer version1Flag).drain xs).messages.length :=
    fun k hk => Codec.encodeAll_take_le_iff (C := codec version1Flag) hms hxs hk
  have htaken : ((framer version1Flag).drain (xs ++ ys)).messages = taken :=
    congrArg Drained.messages hdrain
  have hle : taken.length ≤ (taken ++ left).length := by
    rw [List.length_append]
    omega
  constructor
  · intro hends
    rw [htaken]
    have hk : taken.length ≤ ((framer version1Flag).drain (xs ++ ys)).messages.length := by
      rw [htaken]
    exact (hfirst _ hle).mp (hends _ hle ((hwhole _ hle).mpr hk))
  · intro hlen k hk hends
    have hk' := (hwhole k hk).mp hends
    exact (hfirst k hk).mpr (by omega)

/-- The calls of `readMessage` return what `onInput` dispatches exactly if the read that comes
with the end of the stream completes no message: no frame ends in it. -/
theorem readMessage_agrees {chunks : List Bytes} {ending : Ending} {ms : List DataMessage}
    (hms : ∀ m ∈ ms, m.Encodable) (h : (chunks ++ [ending.bytes]).flatten <+: frames ms) :
    ∃ d taken, Deserializer.collectChunks record noSlots chunks ({}, []) = .ok () (d, taken) ∧
      (∀ returned f, CallsReturn ⟨readsOf chunks ending, {}, {}⟩ returned f ↔
        returned = taken ∧ f = .inputStreamFailed) ∧
      (CallsReturn ⟨readsOf chunks ending, {}, {}⟩
          ((({} : Client).connect 0).onReads (readsOf chunks ending)).exchange.dispatched
          .inputStreamFailed ↔
        frontUnsigned false (d.inputData ++ ending.bytes) = .incomplete) ∧
      (Deserializer.StaysBelow false [] (chunks ++ [ending.bytes]) →
        (CallsReturn ⟨readsOf chunks ending, {}, {}⟩
            ((({} : Client).connect 0).onReads (readsOf chunks ending)).exchange.dispatched
            .inputStreamFailed ↔
          ∀ k ≤ ms.length,
            (frames (ms.take k)).length ≤ (chunks ++ [ending.bytes]).flatten.length →
              (frames (ms.take k)).length ≤ chunks.flatten.length)) := by
  have hstream : [] ++ (chunks.flatten ++ ending.bytes) <+: frames ms := by
    rw [List.flatten_append, List.flatten_singleton] at h
    exact h
  obtain ⟨d, taken, hchunks, ⟨hversion, herr⟩, hcalls⟩ := callsReturn_readsOf (d := {})
    {} ending hms hstream (framer false).front_nil
  obtain ⟨d', all, hall, hdispatched⟩ := onReads_readsOf (c := ({} : Client).connect 0)
    chunks ending hms h
  obtain ⟨count, hcollect⟩ := collect_ok ([] ++ taken) herr
  have hconcat := collectChunks_concat ending.bytes (hchunks [])
  rw [Call.bind_ok hcollect] at hconcat
  have hpair := (EStateM.Result.ok.inj ((hall []).symm.trans hconcat)).2
  obtain rfl : all = taken ++ (d.takesAll ending.bytes).messages := (Prod.mk.inj hpair).2
  have hnone : taken ++ (d.takesAll ending.bytes).messages = taken ↔
      (d.takesAll ending.bytes).messages = [] := List.append_right_eq_self
  have hiff : CallsReturn ⟨readsOf chunks ending, {}, {}⟩
      ((({} : Client).connect 0).onReads (readsOf chunks ending)).exchange.dispatched
      .inputStreamFailed ↔ (d.takesAll ending.bytes).messages = [] := by
    rw [hcalls, hdispatched, ← hnone]
    exact and_iff_left rfl
  refine ⟨d, taken, hchunks [], hcalls, ?_, fun hbelow => ?_⟩
  · rw [hiff, takesAll_nil_iff herr, hversion]
  · have htaken := collectChunks_record (Deserializer.staysBelow_left hbelow) (hchunks [])
    have hall' := collectChunks_record hbelow (hall [])
    rw [List.flatten_append, List.flatten_singleton] at h hall' ⊢
    rw [hiff, forall_frames_le_iff false hms h, htaken, hall']
    simp only [List.nil_append, List.length_append]
    rw [← List.length_eq_zero_iff]
    omega

/-- The frame comes in one read and the end of the stream with an empty one behind it. -/
theorem readMessage_agrees_emptyRead :
    ∃ d taken, Deserializer.collectChunks record noSlots [DataMessage.greeting.frame] ({}, []) =
        .ok () (d, taken) ∧
      (∀ returned f,
        CallsReturn ⟨readsOf [DataMessage.greeting.frame] .emptyRead, {}, {}⟩ returned f ↔
          returned = taken ∧ f = .inputStreamFailed) ∧
      (CallsReturn ⟨readsOf [DataMessage.greeting.frame] .emptyRead, {}, {}⟩
          ((({} : Client).connect 0).onReads
            (readsOf [DataMessage.greeting.frame] .emptyRead)).exchange.dispatched
          .inputStreamFailed ↔
        frontUnsigned false (d.inputData ++ Ending.emptyRead.bytes) = .incomplete) ∧
      (Deserializer.StaysBelow false [] ([DataMessage.greeting.frame] ++ [Ending.emptyRead.bytes]) →
        (CallsReturn ⟨readsOf [DataMessage.greeting.frame] .emptyRead, {}, {}⟩
            ((({} : Client).connect 0).onReads
              (readsOf [DataMessage.greeting.frame] .emptyRead)).exchange.dispatched
            .inputStreamFailed ↔
          ∀ k ≤ [DataMessage.greeting].length,
            (frames ([DataMessage.greeting].take k)).length ≤
                ([DataMessage.greeting.frame] ++ [Ending.emptyRead.bytes]).flatten.length →
              (frames ([DataMessage.greeting].take k)).length ≤
                [DataMessage.greeting.frame].flatten.length)) :=
  readMessage_agrees (by decide) (by decide +kernel)

theorem dispatched_lastRead {bytes : Bytes}
    (h : CallsReturn ⟨readsOf [] (.lastRead bytes), {}, {}⟩
      ((({} : Client).connect 0).onReads (readsOf [] (.lastRead bytes))).exchange.dispatched
      .inputStreamFailed) :
    ((({} : Client).connect 0).onInput bytes .eof).exchange.dispatched = [] := by
  have hread : readMessage (readsOf [] (.lastRead bytes)) {} {} = _ :=
    readMessage_incomplete (framer false).front_nil
  exact ((callsReturn_failed_iff hread).mp h).1

/-- The frame and the end of the stream come in one read: the message is collected, and the
call throws without a look at it. -/
theorem not_readMessage_agrees :
    ¬ ∀ (chunks : List Bytes) (ending : Ending) (ms : List DataMessage),
      (∀ m ∈ ms, m.Encodable) → (chunks ++ [ending.bytes]).flatten <+: frames ms →
      CallsReturn ⟨readsOf chunks ending, {}, {}⟩
        ((({} : Client).connect 0).onReads (readsOf chunks ending)).exchange.dispatched
        .inputStreamFailed := by
  intro h
  have hcalls := h [] (.lastRead DataMessage.greeting.frame) [.greeting] (by decide)
    (by decide +kernel)
  have hnone := dispatched_lastRead hcalls
  have hone : (((({} : Client).connect 0).onInput
      DataMessage.greeting.frame .eof).exchange.dispatched = [.greeting]) := by
    decide +kernel
  rw [hone] at hnone
  cases hnone

end TntPub
