import TntPub.Structured
import TntPub.Deserializer
import TntPub.Runs

namespace TntPub

/-- `cxxtools::SerializationInfo` with its binary format: `bin::Serializer::toString`, and
`bin::Deserializer`, which throws when there is no result. -/
structure BinaryFormat (SI : Type) where
  null : SI
  isNull : SI → Bool
  isNull_null : isNull null = true
  toString : SI → Bytes
  deserialize : Bytes → Option SI
  deserialize_toString : ∀ si, deserialize (toString si) = some si

/-- A `DataMessage` with its member `_si`. -/
structure CachedMessage (SI : Type) where
  message : DataMessage := {}
  si : SI
deriving DecidableEq

namespace CachedMessage

variable {SI : Type} (fmt : BinaryFormat SI)

/-- `setData(_si)`. The source calls `setData` with the member `_si` only, which it keeps. -/
def setData (m : CachedMessage SI) : CachedMessage SI where
  message := { m.message with data := fmt.toString m.si }
  si := m.si

/-- `DataMessage(topic, type, std::move(si))`. -/
def ofObject (o : Origin) (topic : Topic) (type : MessageType) (si : SI) : CachedMessage SI :=
  setData fmt { message := DataMessage.ofOrigin o topic type [], si := si }

def subscribeWithObject (o : Origin) (topic : Topic) (si : SI) (type : SubscriptionType) :
    CachedMessage SI :=
  ofObject fmt o topic
    (if type = .typePrefix then .subscribePrefix
      else if type = .typeRegex then .subscribeRegex
      else if type = .typeRegexReversed then .subscribeRegexReversed
      else .subscribeFull)
    si

def create (o : Origin) (topic : Topic) (si : SI) : CachedMessage SI :=
  ofObject fmt o topic .data si

def createSystem (o : Origin) (topic : Topic) (si : SI) : CachedMessage SI :=
  ofObject fmt o topic .system si

/-- The deprecated constructor `DataMessage(topic, obj)`. -/
def object (o : Origin) (topic : Topic) (si : SI) : CachedMessage SI :=
  setData fmt { message := DataMessage.ofOrigin o topic .data [], si := si }

/-- Apart from `_si` these are the factories of the messages without it. -/
theorem create_message (o : Origin) (topic : Topic) (si : SI) :
    (create fmt o topic si).message = DataMessage.create fmt.toString o topic si ∧
      (createSystem fmt o topic si).message = DataMessage.createSystem fmt.toString o topic si ∧
      ∀ type, (subscribeWithObject fmt o topic si type).message =
        DataMessage.subscribeWithObject fmt.toString o topic si type :=
  ⟨rfl, rfl, fun _ => rfl⟩

/-- A message from a constructor that leaves `_si` alone. -/
def plain (m : DataMessage) : CachedMessage SI := { message := m, si := fmt.null }

/-- The copy constructor and the copy assignment. -/
def copy (m : CachedMessage SI) : CachedMessage SI := { message := m.message, si := fmt.null }

/-- What is left of a message that was moved from. -/
def movedFrom (m : CachedMessage SI) : CachedMessage SI where
  message := { m.message with topic := { main := [] }, source := [], data := [] }
  si := fmt.null

/-- `si()`, which also serves `get` and `typeName`. There is no result when it throws. -/
def readSi (m : CachedMessage SI) : Option (SI × CachedMessage SI) :=
  if fmt.isNull m.si && !m.message.data.isEmpty then
    (fmt.deserialize m.message.data).map fun si => (si, { m with si := si })
  else some (m.si, m)

end CachedMessage

/-- The messages of a program, and the static member `_lastSerial`. -/
structure Messages (SI : Type) where
  messages : List (CachedMessage SI) := []
  lastSerial : UInt64 := 0

/-- The operations of a message; `i` and `j` are places in the list of messages, and those
that construct a message add it to the end. An object stands for its `SerializationInfo`. -/
inductive MessageOperation (SI V : Type)
  | construct
  | object (o : Origin) (topic : Topic) (si : SI)
  | subscribe (o : Origin) (topic : Topic) (type : SubscriptionType) (data : Bytes)
  | unsubscribe (o : Origin) (topic : Topic) (type : SubscriptionType)
  | createPlain (o : Origin) (topic : Topic) (data : Bytes)
  | subscribeWithObject (o : Origin) (topic : Topic) (si : SI) (type : SubscriptionType)
  | create (o : Origin) (topic : Topic) (si : SI)
  | createSystem (o : Origin) (topic : Topic) (si : SI)
  | createFromBuffer (buffer : Bytes) (size : Nat) (version1Flag : Bool)
  | copy (i : Nat)
  | move (i : Nat)
  | assign (i j : Nat)
  | moveAssign (i j : Nat)
  | si (i : Nat)
  | topic (i : Nat) (topic : Topic)
  | touch (i : Nat) (systemTime : UtcDateTime)
  | serial (i : Nat) (v : UInt32)
  | setNextSerial (i : Nat)
  | deserialize (i : Nat) (info : SerializationInfo V)

namespace Messages

variable {SI V : Type} (fmt : BinaryFormat SI) (codecs : MemberCodecs V)

def add (s : Messages SI) (m : CachedMessage SI) : Messages SI :=
  { s with messages := s.messages ++ [m] }

def set (s : Messages SI) (i : Nat) (m : CachedMessage SI) : Messages SI :=
  { s with messages := s.messages.set i m }

/-- Change the fields of a message and leave its object alone. -/
def modify (s : Messages SI) (i : Nat) (f : DataMessage → DataMessage) : Option (Messages SI) :=
  (s.messages[i]?).map fun m => s.set i { m with message := f m.message }

open CachedMessage in
def step (s : Messages SI) : MessageOperation SI V → Option (Messages SI)
  | .construct => some (s.add (plain fmt {}))
  | .object o topic si => some (s.add (object fmt o topic si))
  | .subscribe o topic type data =>
    some (s.add (plain fmt (DataMessage.subscribe o topic type data)))
  | .unsubscribe o topic type => some (s.add (plain fmt (DataMessage.unsubscribe o topic type)))
  | .createPlain o topic data => some (s.add (plain fmt (DataMessage.createPlain o topic data)))
  | .subscribeWithObject o topic si type => some (s.add (subscribeWithObject fmt o topic si type))
  | .create o topic si => some (s.add (create fmt o topic si))
  | .createSystem o topic si => some (s.add (createSystem fmt o topic si))
  | .createFromBuffer buffer size version1Flag =>
    match TntPub.createFromBuffer buffer size version1Flag with
    | .ok m => some (s.add (plain fmt m))
    | .error _ => some s
  | .copy i => do
    let m ← s.messages[i]?
    some (s.add (copy fmt m))
  | .move i => do
    let m ← s.messages[i]?
    some ((s.set i (movedFrom fmt m)).add m)
  | .assign i j => do
    let _ ← s.messages[i]?
    let m ← s.messages[j]?
    some (s.set i (copy fmt m))
  | .moveAssign i j => do
    let _ ← s.messages[i]?
    let m ← s.messages[j]?
    some ((s.set i m).set j (movedFrom fmt m))
  | .si i => do
    let m ← s.messages[i]?
    match m.readSi fmt with
    | none => some s
    | some (_, m) => some (s.set i m)
  | .topic i topic => s.modify i fun m => { m with topic := topic }
  | .touch i systemTime => s.modify i fun m => { m with createDateTime := systemTime }
  | .serial i v => s.modify i fun m => { m with serial := v.toUInt64 }
  | .setNextSerial i =>
    { s with lastSerial := s.lastSerial + 1 }.modify i fun m =>
      { m with serial := s.lastSerial + 1 }
  | .deserialize i info => s.modify i fun m =>
    match DataMessage.deserialize codecs info m with
    | .ok _ t => t
    | .error _ t => t

end Messages

namespace SerializationInfo

variable {V : Type} (codecs : MemberCodecs V)

def optional {α : Type} (codec : MemberCodec V α) : Option V → Option Unit
  | none => some ()
  | some value => (codec.get value).map fun _ => ()

/-- The data in the members, if none of them makes `operator>>=` throw. -/
def written (info : SerializationInfo V) : Option Bytes := do
  let _ ← (info.findMember "type").bind codecs.type.get
  let _ ← (info.findMember "topic").bind codecs.string.get
  let _ ← optional codecs.string (info.findMember "sub")
  let _ ← optional codecs.string (info.findMember "source")
  let _ ← (info.findMember "serial").bind codecs.serial.get
  let _ ← (info.findMember "createDateTime").bind codecs.dateTime.get
  (info.findMember "data").bind codecs.string.get

/-- Reading a member other than the data, which leaves the data of the message alone. -/
def Keeps {α : Type} (read : EStateM SerializationError DataMessage Unit) (found : Option α) :
    Prop :=
  ∀ t, ∃ u, u.data = t.data ∧
    ((∃ a, read t = .ok () u ∧ found = some a) ∨ ∃ e, read t = .error e u ∧ found = none)

/-- Reading members up to the data, which are changed only if nothing throws. -/
def Writes (read : EStateM SerializationError DataMessage Unit) (found : Option Bytes) : Prop :=
  ∀ t, ∃ u, (read t = .ok () u ∧ found = some u.data) ∨
    ∃ e, read t = .error e u ∧ found = none ∧ u.data = t.data

variable {codecs} {α : Type} {codec : MemberCodec V α} {member : α → DataMessage → DataMessage}
  {read next : EStateM SerializationError DataMessage Unit} {found : Option α}
  {data : Option Bytes}

theorem Writes.bind (hread : Keeps read found) (hnext : Writes next data) :
    Writes (read >>= fun _ => next) (found >>= fun _ => data) := by
  intro t
  obtain ⟨u, hu, ⟨a, ht, rfl⟩ | ⟨e, ht, rfl⟩⟩ := hread t
  · obtain ⟨v, hv⟩ := hnext u
    refine ⟨v, ?_⟩
    simp only [Bind.bind, EStateM.bind, ht, Option.bind_some]
    rwa [← hu]
  · refine ⟨u, .inr ⟨e, ?_, rfl, hu⟩⟩
    simp only [Bind.bind, EStateM.bind, ht]

theorem getMember_keeps (info : SerializationInfo V) (name : String)
    (hdata : ∀ a t, (member a t).data = t.data) :
    Keeps (info.getMember name codec member) ((info.findMember name).bind codec.get) := by
  intro t
  cases hfind : info.findMember name with
  | none => exact ⟨t, rfl, .inr ⟨_, by simp only [getMember, hfind]; rfl, rfl⟩⟩
  | some value =>
    cases hget : codec.get value with
    | none =>
      exact ⟨t, rfl, .inr ⟨_, by simp only [getMember, hfind, hget]; rfl, hget⟩⟩
    | some a =>
      exact ⟨member a t, hdata a t, .inl ⟨a, by simp only [getMember, hfind, hget]; rfl, hget⟩⟩

theorem getMemberOptional_keeps (info : SerializationInfo V) (name : String)
    (hdata : ∀ a t, (member a t).data = t.data) :
    Keeps (info.getMemberOptional name codec member) (optional codec (info.findMember name)) := by
  intro t
  cases hfind : info.findMember name with
  | none => exact ⟨t, rfl, .inl ⟨(), by simp only [getMemberOptional, hfind]; rfl, rfl⟩⟩
  | some value =>
    cases hget : codec.get value with
    | none =>
      exact ⟨t, rfl, .inr ⟨_, by simp only [getMemberOptional, hfind, hget]; rfl,
        by rw [optional, hget]; rfl⟩⟩
    | some a =>
      exact ⟨member a t, hdata a t, .inl ⟨(), by simp only [getMemberOptional, hfind, hget]; rfl,
        by rw [optional, hget]; rfl⟩⟩

theorem getMember_writes (info : SerializationInfo V) (name : String) :
    Writes (info.getMember name codecs.string fun data dm => { dm with data := data })
      ((info.findMember name).bind codecs.string.get) := by
  intro t
  cases hfind : info.findMember name with
  | none => exact ⟨t, .inr ⟨_, by simp only [getMember, hfind]; rfl, rfl, rfl⟩⟩
  | some value =>
    cases hget : codecs.string.get value with
    | none =>
      exact ⟨t, .inr ⟨_, by simp only [getMember, hfind, hget]; rfl, hget, rfl⟩⟩
    | some data =>
      exact ⟨{ t with data := data }, .inl ⟨by simp only [getMember, hfind, hget]; rfl, hget⟩⟩

theorem deserialize_writes (codecs : MemberCodecs V) (info : SerializationInfo V) :
    Writes (DataMessage.deserialize codecs info) (info.written codecs) :=
  (Writes.bind (getMember_keeps info _ fun _ _ => rfl) <|
    Writes.bind (getMember_keeps info _ fun _ _ => rfl) <|
    Writes.bind (getMemberOptional_keeps info _ fun _ _ => rfl) <|
    Writes.bind (getMemberOptional_keeps info _ fun _ _ => rfl) <|
    Writes.bind (getMember_keeps info _ fun _ _ => rfl) <|
    Writes.bind (getMember_keeps info _ fun _ _ => rfl) <|
    getMember_writes info "data")

end SerializationInfo

/-- The cached object is null or what the data of the message deserialize to. -/
def CachedMessage.Consistent {SI : Type} (fmt : BinaryFormat SI) (m : CachedMessage SI) : Prop :=
  fmt.isNull m.si = true ∨ fmt.deserialize m.message.data = some m.si

namespace Messages

variable {SI V : Type} (fmt : BinaryFormat SI) (codecs : MemberCodecs V)

def Consistent (s : Messages SI) : Prop := ∀ m ∈ s.messages, m.Consistent fmt

/-- A message into which `operator>>=` writes data holds no object, or that of the new data. -/
def FitsObject (s : Messages SI) : MessageOperation SI V → Prop
  | .deserialize i info => ∀ m ∈ s.messages[i]?, ∀ data ∈ info.written codecs,
    fmt.isNull m.si = true ∨ fmt.deserialize data = some m.si
  | _ => True

variable {fmt codecs} {s s' : Messages SI} {op : MessageOperation SI V}

theorem consistent_null (m : DataMessage) :
    CachedMessage.Consistent fmt { message := m, si := fmt.null } := .inl fmt.isNull_null

theorem consistent_ofObject (o : Origin) (topic : Topic) (type : MessageType) (si : SI) :
    (CachedMessage.ofObject fmt o topic type si).Consistent fmt :=
  .inr (fmt.deserialize_toString si)

theorem Consistent.add (h : s.Consistent fmt) {m : CachedMessage SI} (hm : m.Consistent fmt) :
    (s.add m).Consistent fmt := by
  intro k hk
  rcases List.mem_append.mp hk with hk | hk
  · exact h k hk
  · obtain rfl := List.mem_singleton.mp hk
    exact hm

theorem Consistent.set (h : s.Consistent fmt) {m : CachedMessage SI} (hm : m.Consistent fmt)
    (i : Nat) : (s.set i m).Consistent fmt := by
  intro k hk
  rcases List.mem_or_eq_of_mem_set hk with hk | rfl
  · exact h k hk
  · exact hm

theorem Consistent.get (h : s.Consistent fmt) {i : Nat} {m : CachedMessage SI}
    (hm : s.messages[i]? = some m) : m.Consistent fmt :=
  h m (List.mem_of_getElem? hm)

/-- `si()` fills the cache with what the data deserialize to, and returns it. -/
theorem readSi_consistent {m m' : CachedMessage SI} {si : SI} (h : m.Consistent fmt)
    (hread : m.readSi fmt = some (si, m')) :
    m'.Consistent fmt ∧ m'.message = m.message ∧ m'.si = si ∧
      (m.message.data = [] ∧ fmt.isNull si = true ∨ fmt.deserialize m.message.data = some si) := by
  unfold CachedMessage.readSi at hread
  split at hread
  next =>
    obtain ⟨si', hsi, heq⟩ := Option.map_eq_some_iff.mp hread
    obtain ⟨rfl, rfl⟩ := Prod.mk.inj heq
    exact ⟨.inr hsi, rfl, rfl, .inr hsi⟩
  next hfilled =>
    obtain ⟨rfl, rfl⟩ := Prod.mk.inj (Option.some.inj hread)
    refine ⟨h, rfl, rfl, ?_⟩
    rcases h with hnull | hsi
    · have hempty : m.message.data = [] := by simpa [hnull] using hfilled
      exact .inl ⟨hempty, hnull⟩
    · exact .inr hsi

theorem Consistent.modify (h : s.Consistent fmt) {i : Nat} {f : DataMessage → DataMessage}
    (hstep : s.modify i f = some s') (hdata : ∀ m, (f m).data = m.data) : s'.Consistent fmt := by
  obtain ⟨m, hm, rfl⟩ := Option.map_eq_some_iff.mp hstep
  refine h.set ?_ i
  rw [CachedMessage.Consistent, hdata]
  exact h.get hm

theorem deserialize_written {i : Nat} {info : SerializationInfo V}
    (hstep : s.step fmt codecs (.deserialize i info) = some s') :
    ∃ m t, s.messages[i]? = some m ∧ s' = s.set i { m with message := t } ∧
      (info.written codecs = some t.data ∨
        info.written codecs = none ∧ t.data = m.message.data) := by
  obtain ⟨m, hm, rfl⟩ := Option.map_eq_some_iff.mp hstep
  refine ⟨m, _, hm, rfl, ?_⟩
  obtain ⟨u, ⟨ht, hwritten⟩ | ⟨e, ht, hnone, hdata⟩⟩ :=
    SerializationInfo.deserialize_writes codecs info m.message
  · simp only [ht]
    exact .inl hwritten
  · simp only [ht]
    exact .inr ⟨hnone, hdata⟩

theorem Consistent.deserialize (h : s.Consistent fmt) {i : Nat} {info : SerializationInfo V}
    (hfits : s.FitsObject fmt codecs (.deserialize i info))
    (hstep : s.step fmt codecs (.deserialize i info) = some s') : s'.Consistent fmt := by
  obtain ⟨m, t, hm, rfl, hwritten | ⟨-, hdata⟩⟩ := deserialize_written hstep
  · have hnew : CachedMessage.Consistent fmt { m with message := t } :=
      hfits m hm t.data hwritten
    exact h.set hnew i
  · refine h.set ?_ i
    rw [CachedMessage.Consistent, hdata]
    exact h.get hm

theorem fitsObject_of_consistent {i : Nat} {info : SerializationInfo V}
    (hstep : s.step fmt codecs (.deserialize i info) = some s') (h : s'.Consistent fmt) :
    s.FitsObject fmt codecs (.deserialize i info) := by
  intro m hm data hdata
  obtain ⟨m', t, hm', rfl, hwritten⟩ := deserialize_written hstep
  obtain rfl := Option.some.inj (hm.symm.trans hm')
  have hlt : i < s.messages.length := (List.getElem?_eq_some_iff.mp hm).1
  have hnew := h.get (List.getElem?_set_self hlt)
  rcases hwritten with hwritten | ⟨hnone, -⟩
  · obtain rfl := Option.some.inj (hdata.symm.trans hwritten)
    exact hnew
  · rw [hdata] at hnone
    cases hnone

theorem Consistent.step (h : s.Consistent fmt) (hfits : s.FitsObject fmt codecs op)
    (hstep : s.step fmt codecs op = some s') : s'.Consistent fmt := by
  cases op with
  | construct =>
    cases hstep
    exact h.add (consistent_null _)
  | object o topic si =>
    cases hstep
    exact h.add (consistent_ofObject o topic .data si)
  | subscribe o topic type data =>
    cases hstep
    exact h.add (consistent_null _)
  | unsubscribe o topic type =>
    cases hstep
    exact h.add (consistent_null _)
  | createPlain o topic data =>
    cases hstep
    exact h.add (consistent_null _)
  | subscribeWithObject o topic si type =>
    cases hstep
    exact h.add (consistent_ofObject o topic _ si)
  | create o topic si =>
    cases hstep
    exact h.add (consistent_ofObject o topic .data si)
  | createSystem o topic si =>
    cases hstep
    exact h.add (consistent_ofObject o topic .system si)
  | createFromBuffer buffer size version1Flag =>
    simp only [Messages.step] at hstep
    split at hstep
    next m hm =>
      cases hstep
      exact h.add (consistent_null m)
    next =>
      cases hstep
      exact h
  | copy i =>
    obtain ⟨m, hm, hstep⟩ := Option.bind_eq_some_iff.mp hstep
    cases hstep
    exact h.add (consistent_null m.message)
  | move i =>
    obtain ⟨m, hm, hstep⟩ := Option.bind_eq_some_iff.mp hstep
    cases hstep
    exact (h.set (consistent_null _) i).add (h.get hm)
  | assign i j =>
    obtain ⟨_, -, hstep⟩ := Option.bind_eq_some_iff.mp hstep
    obtain ⟨m, hm, hstep⟩ := Option.bind_eq_some_iff.mp hstep
    cases hstep
    exact h.set (consistent_null m.message) i
  | moveAssign i j =>
    obtain ⟨_, -, hstep⟩ := Option.bind_eq_some_iff.mp hstep
    obtain ⟨m, hm, hstep⟩ := Option.bind_eq_some_iff.mp hstep
    cases hstep
    exact (h.set (h.get hm) i).set (consistent_null _) j
  | si i =>
    obtain ⟨m, hm, hstep⟩ := Option.bind_eq_some_iff.mp hstep
    split at hstep
    next =>
      cases hstep
      exact h
    next si m' hread =>
      cases hstep
      exact h.set (readSi_consistent (h.get hm) hread).1 i
  | topic i topic =>
    simp only [Messages.step] at hstep
    exact h.modify hstep fun _ => rfl
  | touch i systemTime =>
    simp only [Messages.step] at hstep
    exact h.modify hstep fun _ => rfl
  | serial i v =>
    simp only [Messages.step] at hstep
    exact h.modify hstep fun _ => rfl
  | setNextSerial i =>
    have hnext : ({ s with lastSerial := s.lastSerial + 1 } : Messages SI).Consistent fmt := h
    simp only [Messages.step] at hstep
    exact hnext.modify hstep fun _ => rfl
  | deserialize i info => exact h.deserialize hfits hstep

/-- An operation breaks the agreement of cached objects and data only by writing data into a
message that holds the object of others. -/
theorem consistent_step_iff (h : s.Consistent fmt) (hstep : s.step fmt codecs op = some s') :
    s'.Consistent fmt ↔ s.FitsObject fmt codecs op := by
  refine ⟨fun h' => ?_, fun hfits => h.step hfits hstep⟩
  cases op with
  | deserialize i info => exact fitsObject_of_consistent hstep h'
  | _ => trivial

/-- If `operator>>=` never writes into a message that holds the object of other data, each
message describes its data. -/
theorem si_describes_data (fmt : BinaryFormat SI) (codecs : MemberCodecs V)
    (ops : List (MessageOperation SI V)) (lastSerial : UInt64) (s : Messages SI)
    (hfits : Runs.Meets (step fmt codecs) (FitsObject fmt codecs) { lastSerial := lastSerial } ops)
    (hrun : Runs.run (step fmt codecs) { lastSerial := lastSerial } ops = some s) :
    ∀ m ∈ s.messages, m.Consistent fmt ∧
      ∀ si m', m.readSi fmt = some (si, m') →
        m'.message = m.message ∧ m'.si = si ∧
          (m.message.data = [] ∧ fmt.isNull si = true ∨
            fmt.deserialize m.message.data = some si) := by
  have h : s.Consistent fmt := Runs.invariant_of_meets (Consistent fmt)
    (fun _ _ _ hfits h hstep => (consistent_step_iff h hstep).mpr hfits)
    (fun m hm => absurd hm List.not_mem_nil) hfits hrun
  intro m hm
  exact ⟨h m hm, fun si m' hread => (readSi_consistent (h m hm) hread).2⟩

/-- Objects that are null or strings, with a leading byte that tells which. -/
def stringFormat : BinaryFormat (Option Bytes) where
  null := none
  isNull := Option.isNone
  isNull_null := rfl
  toString
    | none => [0]
    | some value => 1 :: value
  deserialize
    | 0 :: _ => some none
    | 1 :: value => some (some value)
    | _ => none
  deserialize_toString si := by cases si <;> rfl

/-- A message with an object; then a received message is read from a `SerializationInfo` into
message `i`. -/
def readInto (i : Nat) : List (MessageOperation (Option Bytes) PlainValue) :=
  [.create ⟨[], 0, 0⟩ { main := [0x61] } (some [0x68]), .copy 0,
    .deserialize i (DataMessage.greeting.serialize plainCodecs {})]

theorem si_describes_data_copy :
    ∃ s, Runs.run (step stringFormat plainCodecs) { lastSerial := 0 } (readInto 1) = some s ∧
      ∀ m ∈ s.messages, m.Consistent stringFormat ∧
        ∀ si m', m.readSi stringFormat = some (si, m') →
          m'.message = m.message ∧ m'.si = si ∧
            (m.message.data = [] ∧ stringFormat.isNull si = true ∨
              stringFormat.deserialize m.message.data = some si) := by
  refine ⟨_, rfl, si_describes_data stringFormat plainCodecs (readInto 1) 0 _ ?_ rfl⟩
  refine ⟨trivial, fun s hs => ?_⟩
  obtain rfl := Option.some.inj hs
  refine ⟨trivial, fun s hs => ?_⟩
  obtain rfl := Option.some.inj hs
  refine ⟨fun m hm data hdata => ?_, fun _ _ => trivial⟩
  obtain rfl := Option.some.inj hm
  exact .inl rfl

/-- The copy holds no object and may be read into; the message itself goes on to describe the
data it was created with. -/
theorem not_si_describes_data :
    ¬ ∀ (ops : List (MessageOperation (Option Bytes) PlainValue)) (s : Messages (Option Bytes)),
      Runs.run (step stringFormat plainCodecs) {} ops = some s →
      ∀ m ∈ s.messages, m.Consistent stringFormat := by
  intro h
  rcases h (readInto 0) _ rfl _ List.mem_cons_self with hnull | hobject
  · cases hnull
  · exact absurd hobject (by decide)

end Messages

end TntPub
