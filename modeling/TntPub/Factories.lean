import TntPub.StreamDecoding
import TntPub.Course

namespace TntPub

/-- A call of one of the functions that make a message, with its arguments. -/
inductive FactoryCall (Obj : Type)
  | subscribe (o : Origin) (topic : Topic) (type : SubscriptionType) (data : Bytes)
  | subscribeWithObject (o : Origin) (topic : Topic) (obj : Obj) (type : SubscriptionType)
  | unsubscribe (o : Origin) (topic : Topic) (type : SubscriptionType)
  | create (o : Origin) (topic : Topic) (obj : Obj)
  | createPlain (o : Origin) (topic : Topic) (data : Bytes)
  | createSystem (o : Origin) (topic : Topic) (obj : Obj)

namespace FactoryCall

variable {Obj : Type} (serialize : Obj → Bytes)

def message : FactoryCall Obj → DataMessage
  | subscribe o topic type data => DataMessage.subscribe o topic type data
  | subscribeWithObject o topic obj type =>
    DataMessage.subscribeWithObject serialize o topic obj type
  | unsubscribe o topic type => DataMessage.unsubscribe o topic type
  | create o topic obj => DataMessage.create serialize o topic obj
  | createPlain o topic data => DataMessage.createPlain o topic data
  | createSystem o topic obj => DataMessage.createSystem serialize o topic obj

/-- The one kind of request `isValidType` has no case for. -/
def isReversedObject : FactoryCall Obj → Bool
  | subscribeWithObject _ _ _ type => type == .typeRegexReversed
  | _ => false

variable {serialize}

theorem isValidType_message (c : FactoryCall Obj) :
    isValidType (c.message serialize).type = !c.isReversedObject := by
  cases c with
  | subscribe o topic type data => cases type <;> rfl
  | subscribeWithObject o topic obj type => cases type <;> rfl
  | unsubscribe o topic type => cases type <;> rfl
  | create o topic obj => rfl
  | createPlain o topic data => rfl
  | createSystem o topic obj => rfl

end FactoryCall

/-- The default deserializer accepts the frames of the messages, however they arrive, and
delivers every message. -/
def Delivered (ms : List DataMessage) : Prop :=
  ∀ chunks, chunks.flatten = frames ms → Deserializer.StaysBelow false [] chunks →
    outcome (Deserializer.advanceChunks record noSlots chunks ({}, [])) = .ok {} ms

theorem drain_invalidType (version1Flag : Bool) {m : DataMessage} (hm : m.FitsHeader)
    (hinvalid : isValidType m.type = false) (more : Bytes) :
    (framer version1Flag).drain (m.frame ++ more) =
      ⟨[], m.frame ++ more, some .corruptMessage⟩ := by
  have hlen := hm.frame_length
  have hsize := m.sizeof_le_messageLength
  have hhead := hm.ofBuffer_frame
  rw [Header.sizeof] at hsize
  have hcheck : checkHeader m.header.type m.header.messageLength m.header.dataOffset = none := by
    cases hc : checkHeader m.header.type m.header.messageLength m.header.dataOffset with
    | none => rfl
    | some t =>
      obtain ⟨ht, hv, -⟩ := checkHeader_eq_some.mp hc
      have heq : some m.type = some t := (MessageType.ofChar_toChar m.type).symm.trans ht
      rw [← Option.some.inj heq, hinvalid] at hv
      cases hv
  have hfail : (framer version1Flag).front m.frame = .fail .corruptMessage := by
    rw [framer_front, parseMessage, if_neg (by rw [Header1.sizeof]; omega), hhead,
      if_pos (show m.header.magic = Header.magicNumber from rfl)]
    exact parseCurrent_eq_fail.mpr ⟨by rw [Header.sizeof]; omega, by rw [hhead]; exact hcheck, rfl⟩
  exact Framing.Framer.drain_of_fail ((framer version1Flag).fail_append more hfail)

/-- A list of frames fed frame by frame never collects more than one of them. -/
theorem staysBelow_frames (version1Flag : Bool) {ms : List DataMessage}
    (hms : ∀ m ∈ ms, m.FitsHeader) :
    Deserializer.StaysBelow version1Flag [] (ms.map DataMessage.frame) := by
  induction ms with
  | nil => trivial
  | cons m ms ih =>
    have hm := hms m List.mem_cons_self
    have hlen := hm.frame_length
    have hlt := hm.length_lt
    have hrest := ih fun k hk => hms k (List.mem_cons_of_mem m hk)
    refine ⟨by simpa [hlen] using hlt, fun herr => ?_⟩
    cases hv : isValidType m.type with
    | false =>
      have hdrain := drain_invalidType version1Flag hm hv []
      rw [List.append_nil] at hdrain
      rw [List.nil_append, hdrain] at herr
      cases herr
    | true =>
      have hdrain := drain_frame_append version1Flag ⟨hm, hv⟩ []
      rw [List.append_nil, Framing.Framer.drain_nil] at hdrain
      rw [List.nil_append, hdrain]
      exact hrest

theorem drain_frames_invalid (version1Flag : Bool) {ms : List DataMessage}
    (hms : ∀ m ∈ ms, m.FitsHeader) (hinvalid : ∃ m ∈ ms, isValidType m.type = false) :
    ((framer version1Flag).drain (frames ms)).error = some .corruptMessage := by
  induction ms with
  | nil => simp at hinvalid
  | cons m ms ih =>
    have hm := hms m List.mem_cons_self
    rw [frames_cons]
    cases hv : isValidType m.type with
    | false => rw [drain_invalidType version1Flag hm hv]
    | true =>
      have hrest : ∃ k ∈ ms, isValidType k.type = false := by
        obtain ⟨k, hk, hkv⟩ := hinvalid
        rcases List.mem_cons.mp hk with rfl | hk
        · rw [hv] at hkv; cases hkv
        · exact ⟨k, hk, hkv⟩
      rw [drain_frame_append version1Flag ⟨hm, hv⟩]
      exact ih (fun k hk => hms k (List.mem_cons_of_mem m hk)) hrest

theorem delivered_iff {ms : List DataMessage} (hms : ∀ m ∈ ms, m.FitsHeader) :
    Delivered ms ↔ ∀ m ∈ ms, isValidType m.type = true := by
  constructor
  · intro hall m hm
    by_contra hv
    have hbad : isValidType m.type = false := by simpa using hv
    have herr := drain_frames_invalid false hms ⟨m, hm, hbad⟩
    have hbelow := staysBelow_frames false hms
    have hok := hall (ms.map DataMessage.frame) rfl hbelow
    obtain ⟨hdrain, -⟩ := (advanceChunks_record_iff hbelow).mp hok
    rw [show (ms.map DataMessage.frame).flatten = frames ms from rfl] at hdrain
    rw [hdrain] at herr
    cases herr
  · intro htypes chunks hchunks hbelow
    exact advanceChunks_frames (fun m hm => ⟨hms m hm, htypes m hm⟩) hchunks hbelow

/-- The default server, which has no limit, takes the frames of the messages from a new
connection, however they arrive, and keeps it. -/
def Survived (rx : Regex) (ms : List DataMessage) : Prop :=
  ∀ s id r chunks, s.responders.find id = some r → s.maxOBuf = 0 → r.deserializer = {} →
    chunks.flatten = frames ms → Deserializer.StaysBelow false [] chunks →
    ∃ t r', Server.inputChunks rx id chunks s = .ok () t ∧ t.responders.find id = some r'

theorem survived {rx : Regex} {ms : List DataMessage} (hms : ∀ m ∈ ms, m.Encodable)
    (haccepted : ∀ m ∈ ms, m.isAccepted rx = true) : Survived rx ms := by
  intro s id r chunks hr hmax hdefault hchunks hbelow
  have hdrain : (framer r.deserializer.version1Flag).drain
      (r.deserializer.inputData ++ chunks.flatten) = ⟨ms, [], none⟩ := by
    rw [hdefault, hchunks, List.nil_append]
    exact drain_frames false hms
  have hwait := r.deserializer.front_of_empty (by rw [hdefault])
  obtain ⟨⟨serial, r'⟩, hcourses⟩ := Responder.exists_courses r s.lastSerial haccepted
  rw [← hmax] at hcourses
  obtain ⟨t, ht, -, -, hr', -⟩ := Server.inputChunks_courses hr hwait
    (by rw [hdefault]; exact hbelow) hdrain rfl hcourses
  exact ⟨t, _, ht, hr'⟩

namespace Server

variable {rx : Regex} {s t : Server} {id : ResponderId} {r r' : Responder}

theorem takes_frame {m : DataMessage} (hdefault : r.deserializer = {}) (hm : m.Encodable) :
    r.takes m.frame = ⟨[m], [], none⟩ := by
  have hdrain := drain_frames false (List.forall_mem_singleton.mpr hm)
  rw [frames_cons, frames_nil, List.append_nil] at hdrain
  rw [takes_eq_drain (r.deserializer.front_of_empty (by rw [hdefault]))
    (by rw [hdefault]; simpa [hm.1.frame_length] using hm.1.length_lt), hdefault]
  exact hdrain

/-- A frame whose pattern cannot be compiled costs its sender the connection. -/
theorem onInput_rejected {m : DataMessage} (hr : s.responders.find id = some r)
    (hdefault : r.deserializer = {}) (hm : m.Encodable) (hrejected : m.isAccepted rx = false)
    (h : onInput rx id m.frame false s = .ok () t) : t.responders.find id = none := by
  have htakes := takes_frame hdefault hm
  have hcontrol : m.isDataMessage = false := by
    by_contra hdata
    rw [DataMessage.isAccepted_of_data (by simpa using hdata)] at hrejected
    cases hrejected
  obtain ⟨e, he⟩ := r.control_rejected hrejected
  obtain ⟨u, hu, hparts⟩ := announce_rejected hr hcontrol he
  have hfind : u.responders.find id = some r := congrArg Connection.responder hparts
  have hdeliver : deliver (handleMessage rx id) (emitMessage id) [m] s =
      .error (.exception e) u := by
    rw [deliver, Call.bind_error hu]
  have hcatch : catchException id u = .ok () t := by
    rw [onInput_eq hr, htakes, hdeliver] at h
    exact h
  rw [catchException, hfind] at hcatch
  simp only [Option.isSome_some, if_true, closeClient_ok hfind] at hcatch
  obtain ⟨-, rfl⟩ := EStateM.Result.ok.inj hcatch
  simp

/-- A sender that keeps its connection has asked for nothing that cannot be compiled. -/
theorem isAccepted_of_inputChunks {ms : List DataMessage} (hr : s.responders.find id = some r)
    (hmax : s.maxOBuf = 0) (hdefault : r.deserializer = {}) (hms : ∀ m ∈ ms, m.Encodable)
    (h : inputChunks rx id (ms.map DataMessage.frame) s = .ok () t)
    (hr' : t.responders.find id = some r') : ∀ m ∈ ms, m.isAccepted rx = true := by
  induction ms generalizing s r with
  | nil => simp
  | cons m ms ih =>
    have hm := hms m List.mem_cons_self
    have hothers := fun k hk => hms k (List.mem_cons_of_mem m hk)
    obtain ⟨⟨⟩, u, hfirst, hrest⟩ := Call.bind_eq_ok.mp h
    cases haccepted : m.isAccepted rx with
    | false =>
      have hgone := onInput_rejected hr hdefault hm haccepted hfirst
      cases ms with
      | nil =>
        obtain ⟨-, rfl⟩ := EStateM.Result.ok.inj hrest
        rw [hgone] at hr'
        cases hr'
      | cons k ks =>
        obtain ⟨⟨⟩, v, hsecond, -⟩ := Call.bind_eq_ok.mp hrest
        simp only [onInput, hgone] at hsecond
        cases hsecond
    | true =>
      have hone : ∀ k ∈ [m], k.isAccepted rx = true := by simpa using haccepted
      obtain ⟨⟨serial, q⟩, hcourses⟩ := r.exists_courses s.lastSerial hone
      have htakes := takes_frame hdefault hm
      have herr : (r.takes m.frame).error = none := by rw [htakes]
      obtain ⟨v, hv, -, hmaxv, hq, -⟩ := onInput_courses hr herr
        (by rw [htakes, hmax]; exact hcourses)
      obtain ⟨-, rfl⟩ := EStateM.Result.ok.inj (hfirst.symm.trans hv)
      have hleft := ih hq (hmaxv.trans hmax) (by rw [htakes, hdefault]; rfl) hothers hrest
      intro k hk
      rcases List.mem_cons.mp hk with rfl | hk
      · exact haccepted
      · exact hleft k hk

end Server

theorem Survived.accepted {rx : Regex} {ms : List DataMessage} (h : Survived rx ms)
    (hms : ∀ m ∈ ms, m.Encodable) : ∀ m ∈ ms, m.isAccepted rx = true := by
  have hr : Server.oneClient.responders.find 0 = some {} := rfl
  obtain ⟨t, r', ht, hr'⟩ := h Server.oneClient 0 {} (ms.map DataMessage.frame) hr rfl rfl rfl
    (staysBelow_frames false fun m hm => (hms m hm).1)
  exact Server.isAccepted_of_inputChunks hr rfl rfl hms ht hr'

namespace FactoryCall

variable {Obj : Type} {serialize : Obj → Bytes}

/-- A regular expression that is asked for can be compiled. -/
def compiles (rx : Regex) : FactoryCall Obj → Bool
  | subscribe _ topic type _ => type != .typeRegex || rx.accepts topic.sub
  | subscribeWithObject _ topic _ type => type != .typeRegex || rx.accepts topic.sub
  | _ => true

theorem isOk_regex (rx : Regex) (topic : Topic) :
    (Subscription.create rx topic .typeRegex).isOk = rx.accepts topic.sub := by
  unfold Subscription.create
  cases rx.accepts topic.sub with
  | true => rfl
  | false => rfl

theorem isAccepted_message (rx : Regex) {c : FactoryCall Obj} (hc : c.isReversedObject = false) :
    (c.message serialize).isAccepted rx = c.compiles rx := by
  cases c with
  | subscribe o topic type data =>
    cases type with
    | typeRegex => exact isOk_regex rx topic
    | _ => rfl
  | subscribeWithObject o topic obj type =>
    cases type with
    | typeRegex => exact isOk_regex rx topic
    | typeRegexReversed => cases hc
    | _ => rfl
  | unsubscribe o topic type => cases type <;> rfl
  | create o topic obj => rfl
  | createPlain o topic data => rfl
  | createSystem o topic obj => rfl

end FactoryCall

/-- The library's decoder accepts what the library's own factories make, and no such message
costs its sender the connection, exactly if no request with an object and a reversed regular
expression is among them, and every regular expression can be compiled. -/
theorem factories_delivered_iff {Obj : Type} (serialize : Obj → Bytes) (rx : Regex)
    (calls : List (FactoryCall Obj)) (hfit : ∀ c ∈ calls, (c.message serialize).FitsHeader) :
    (Delivered (calls.map (FactoryCall.message serialize)) ∧
      Survived rx (calls.map (FactoryCall.message serialize))) ↔
      ∀ c ∈ calls, c.isReversedObject = false ∧ c.compiles rx = true := by
  have hms : ∀ m ∈ calls.map (FactoryCall.message serialize), m.FitsHeader := by
    intro m hm
    obtain ⟨c, hc, rfl⟩ := List.mem_map.mp hm
    exact hfit c hc
  rw [delivered_iff hms]
  constructor
  · rintro ⟨htypes, hsurvived⟩ c hc
    have hv := htypes _ (List.mem_map_of_mem hc)
    rw [FactoryCall.isValidType_message] at hv
    have hobject : c.isReversedObject = false := by simpa using hv
    have haccepted := hsurvived.accepted (fun m hm => ⟨hms m hm, htypes m hm⟩) _
      (List.mem_map_of_mem hc)
    rw [FactoryCall.isAccepted_message rx hobject] at haccepted
    exact ⟨hobject, haccepted⟩
  · intro h
    have htypes : ∀ m ∈ calls.map (FactoryCall.message serialize), isValidType m.type = true := by
      intro m hm
      obtain ⟨c, hc, rfl⟩ := List.mem_map.mp hm
      rw [FactoryCall.isValidType_message, (h c hc).1]
      rfl
    refine ⟨htypes, survived (fun m hm => ⟨hms m hm, htypes m hm⟩) fun m hm => ?_⟩
    obtain ⟨c, hc, rfl⟩ := List.mem_map.mp hm
    rw [FactoryCall.isAccepted_message rx (h c hc).1]
    exact (h c hc).2

/-- A request without object, one with an object and a plain message behind them. -/
def objectRequests (type : SubscriptionType) : List (FactoryCall Bytes) :=
  [.subscribe ⟨[], 0, 0⟩ { main := [0x61], sub := [0x78] } .typeRegexReversed [],
    .subscribeWithObject ⟨[], 0, 0⟩ { main := [0x61], sub := [0x78] } [0x01] type,
    .createPlain ⟨[], 0, 0⟩ { main := [0x61] } [0x68, 0x69]]

theorem factories_delivered_regex :
    Delivered ((objectRequests .typeRegex).map (FactoryCall.message id)) ∧
      Survived .literal ((objectRequests .typeRegex).map (FactoryCall.message id)) :=
  (factories_delivered_iff id .literal (objectRequests .typeRegex) (by decide)).mpr (by decide)

theorem not_factories_delivered :
    ¬ ∀ (serialize : Bytes → Bytes) (calls : List (FactoryCall Bytes)),
      (∀ c ∈ calls, (FactoryCall.message serialize c).FitsHeader) →
      Delivered (calls.map (FactoryCall.message serialize)) := by
  intro h
  have hdelivered := h id (objectRequests .typeRegexReversed) (by decide)
  have htypes := (delivered_iff (by decide)).mp hdelivered
  exact absurd htypes (by decide)

end TntPub
