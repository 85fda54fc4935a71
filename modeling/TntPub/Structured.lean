import TntPub.DataMessage

namespace TntPub

inductive SerializationError
  | memberNotFound (name : String)
  | conversionFailed (name : String)
deriving DecidableEq

/-- How `cxxtools` stores a value of one type in a member, and reads it back. -/
structure MemberCodec (V α : Type) where
  put : α → V
  get : V → Option α
  get_put : ∀ a, get (put a) = some a

/-- The types of the members of a message; `type` goes through `cxxtools::EnumClass`. -/
structure MemberCodecs (V : Type) where
  type : MemberCodec V MessageType
  string : MemberCodec V Bytes
  serial : MemberCodec V UInt64
  dateTime : MemberCodec V UtcDateTime

/-- The named members of a `cxxtools::SerializationInfo`. -/
structure SerializationInfo (V : Type) where
  members : List (String × V) := []
deriving DecidableEq

namespace SerializationInfo

variable {V α : Type}

def addMember (si : SerializationInfo V) (name : String) (value : V) : SerializationInfo V where
  members := si.members ++ [(name, value)]

def findMember (si : SerializationInfo V) (name : String) : Option V :=
  si.members.lookup name

/-- `si.getMember(name) >>= member`; what was read before an exception stays read. -/
def getMember (si : SerializationInfo V) (name : String) (codec : MemberCodec V α)
    (member : α → DataMessage → DataMessage) : EStateM SerializationError DataMessage Unit :=
  match si.findMember name with
  | none => throw (.memberNotFound name)
  | some value =>
    match codec.get value with
    | none => throw (.conversionFailed name)
    | some a => modify (member a)

/-- `si.getMember(name, member)`, which leaves the member alone when there is none. -/
def getMemberOptional (si : SerializationInfo V) (name : String) (codec : MemberCodec V α)
    (member : α → DataMessage → DataMessage) : EStateM SerializationError DataMessage Unit :=
  match si.findMember name with
  | none => pure ()
  | some value =>
    match codec.get value with
    | none => throw (.conversionFailed name)
    | some a => modify (member a)

variable {si : SerializationInfo V} {name : String} {codec : MemberCodec V α} {a : α}

@[simp] theorem findMember_new : ({} : SerializationInfo V).findMember name = none := rfl

@[simp] theorem findMember_addMember (added : String) (value : V) :
    (si.addMember added value).findMember name =
      (si.findMember name).or (if name = added then some value else none) := by
  unfold findMember addMember
  rw [List.lookup_append, List.lookup_cons, List.lookup_nil]
  by_cases h : name = added
  · simp [h]
  · have hne : (name == added) = false := by simpa using h
    rw [hne, if_neg h]

theorem findMember_ite (c : Prop) [Decidable c] (optional : SerializationInfo V) :
    (if c then optional else si).findMember name =
      if c then optional.findMember name else si.findMember name := by
  split <;> rfl

theorem getMember_put (h : si.findMember name = some (codec.put a))
    (member : α → DataMessage → DataMessage) (t : DataMessage) :
    si.getMember name codec member t = .ok () (member a t) := by
  simp only [getMember, h, codec.get_put]
  rfl

theorem getMemberOptional_put {absent : Prop} [Decidable absent]
    (h : si.findMember name = if absent then none else some (codec.put a))
    (member : α → DataMessage → DataMessage) (t : DataMessage) :
    si.getMemberOptional name codec member t = .ok () (if absent then t else member a t) := by
  by_cases habsent : absent
  · rw [if_pos habsent] at h ⊢
    simp only [getMemberOptional, h]
    rfl
  · rw [if_neg habsent] at h ⊢
    simp only [getMemberOptional, h, codec.get_put]
    rfl

end SerializationInfo

namespace DataMessage

variable {V : Type} (codecs : MemberCodecs V)

/-- `operator<<=`. -/
def serialize (si : SerializationInfo V) (dm : DataMessage) : SerializationInfo V :=
  let si := si.addMember "type" (codecs.type.put dm.type)
  let si := si.addMember "topic" (codecs.string.put dm.topic.main)
  let si := if dm.topic.sub.length > 0 then si.addMember "sub" (codecs.string.put dm.topic.sub)
    else si
  let si := if !dm.source.isEmpty then si.addMember "source" (codecs.string.put dm.source) else si
  let si := si.addMember "serial" (codecs.serial.put dm.serial)
  let si := si.addMember "createDateTime" (codecs.dateTime.put dm.createDateTime)
  si.addMember "data" (codecs.string.put dm.data)

/-- `operator>>=`, a call on the message it reads into. -/
def deserialize (si : SerializationInfo V) : EStateM SerializationError DataMessage Unit := do
  si.getMember "type" codecs.type fun type dm => { dm with type := type }
  si.getMember "topic" codecs.string fun main dm => { dm with topic.main := main }
  si.getMemberOptional "sub" codecs.string fun sub dm => { dm with topic.sub := sub }
  si.getMemberOptional "source" codecs.string fun source dm => { dm with source := source }
  si.getMember "serial" codecs.serial fun serial dm => { dm with serial := serial }
  si.getMember "createDateTime" codecs.dateTime fun time dm => { dm with createDateTime := time }
  si.getMember "data" codecs.string fun data dm => { dm with data := data }

variable {codecs} (m t : DataMessage)

/-- A fresh object holds a member for each field but an empty subtopic or source. -/
theorem findMember_serialize (name : String) :
    (m.serialize codecs {}).findMember name =
      if name = "type" then some (codecs.type.put m.type)
      else if name = "topic" then some (codecs.string.put m.topic.main)
      else if name = "sub" then
        if m.topic.sub = [] then none else some (codecs.string.put m.topic.sub)
      else if name = "source" then
        if m.source = [] then none else some (codecs.string.put m.source)
      else if name = "serial" then some (codecs.serial.put m.serial)
      else if name = "createDateTime" then some (codecs.dateTime.put m.createDateTime)
      else if name = "data" then some (codecs.string.put m.data)
      else none := by
  have hor {p : Prop} [Decidable p] (x y z : Option V) :
      (if p then x else y).or z = if p then x.or z else y.or z := by split <;> rfl
  simp only [serialize, SerializationInfo.findMember_addMember, SerializationInfo.findMember_ite,
    SerializationInfo.findMember_new, hor, Option.some_or, Option.none_or, gt_iff_lt,
    List.length_pos_iff, Bool.not_eq_true', List.isEmpty_eq_false_iff, ne_eq]
  by_cases hsub : name = "sub"
  · subst hsub
    simp
  · by_cases hsource : name = "source"
    · subst hsource
      simp
    · simp [hsub, hsource]

/-- What the target comes to hold: an empty subtopic or source of the message is not read. -/
theorem deserialize_serialize :
    deserialize codecs (m.serialize codecs {}) t =
      .ok () { m with
        topic.sub := if m.topic.sub = [] then t.topic.sub else m.topic.sub
        source := if m.source = [] then t.source else m.source } := by
  have h : ∀ name, (m.serialize codecs {}).findMember name = _ := findMember_serialize m
  have htype := SerializationInfo.getMember_put (h "type")
  have htopic := SerializationInfo.getMember_put (h "topic")
  have hserial := SerializationInfo.getMember_put (h "serial")
  have htime := SerializationInfo.getMember_put (h "createDateTime")
  have hdata := SerializationInfo.getMember_put (h "data")
  have hsub := SerializationInfo.getMemberOptional_put (h "sub")
  have hsource := SerializationInfo.getMemberOptional_put (h "source")
  simp only [deserialize, bind, EStateM.bind, htype, htopic, hsub, hsource, hserial, htime, hdata]
  by_cases hsub : m.topic.sub = [] <;> by_cases hsource : m.source = [] <;> simp [hsub, hsource]

/-- The target becomes equal to the message unless it keeps a subtopic or a source of its own
where the message has none. -/
theorem deserialize_serialize_iff :
    deserialize codecs (m.serialize codecs {}) t = .ok () m ↔
      (m.topic.sub = [] → t.topic.sub = []) ∧ (m.source = [] → t.source = []) := by
  rw [deserialize_serialize]
  constructor
  · intro h
    have heq := (EStateM.Result.ok.inj h).2
    have hsub := congrArg (fun dm => dm.topic.sub) heq
    have hsource := congrArg DataMessage.source heq
    constructor
    · intro hm
      simpa [hm] using hsub
    · intro hm
      simpa [hm] using hsource
  · rintro ⟨hsub, hsource⟩
    have hsub' : (if m.topic.sub = [] then t.topic.sub else m.topic.sub) = m.topic.sub := by
      split
      next hm => rw [hm, hsub hm]
      next => rfl
    have hsource' : (if m.source = [] then t.source else m.source) = m.source := by
      split
      next hm => rw [hm, hsource hm]
      next => rfl
    rw [hsub', hsource']

end DataMessage

inductive PlainValue
  | type (a : MessageType)
  | string (a : Bytes)
  | serial (a : UInt64)
  | dateTime (a : UtcDateTime)
deriving DecidableEq

/-- Members that hold the values as they are. -/
def plainCodecs : MemberCodecs PlainValue where
  type := ⟨.type, fun | .type a => some a | _ => none, fun _ => rfl⟩
  string := ⟨.string, fun | .string a => some a | _ => none, fun _ => rfl⟩
  serial := ⟨.serial, fun | .serial a => some a | _ => none, fun _ => rfl⟩
  dateTime := ⟨.dateTime, fun | .dateTime a => some a | _ => none, fun _ => rfl⟩

namespace DataMessage

/-- A message without source keeps that of the message read into the same object before. -/
theorem not_deserialize_serialize :
    ¬ ∀ (V : Type) (codecs : MemberCodecs V) (m t : DataMessage),
      deserialize codecs (m.serialize codecs {}) t = .ok () m := by
  intro h
  have hsource := h PlainValue plainCodecs greeting { greeting with source := [0x68] }
  rw [deserialize_serialize] at hsource
  exact absurd (congrArg DataMessage.source (EStateM.Result.ok.inj hsource).2) (by decide)

end DataMessage

end TntPub
