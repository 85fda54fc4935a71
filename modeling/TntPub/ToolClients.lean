import TntPub.Tools

namespace TntPub

open Framing Broadcast Lines

section Calls

variable {d : Deserializer}

/-- The calls of `readMessage` that a read completes return what has come with it. -/
theorem callsReturn_read (bytes : Bytes)
    (hwait : frontUnsigned d.version1Flag d.inputData = .incomplete)
    (last : DataMessage) (more : List Read) : ∃ last', ∀ ms f,
      CallsReturn ⟨more, { d with inputData := (d.takesAll bytes).rest }, last'⟩ ms f →
      CallsReturn ⟨{ bytes := bytes } :: more, d, last⟩ ((d.takesAll bytes).messages ++ ms) f := by
  have hread : readMessage ({ bytes := bytes } :: more) d last =
      readMessage more (d.addData bytes bytes.length) last := readMessage_incomplete hwait
  rw [Deserializer.addData_all] at hread
  obtain ⟨last', hdrain⟩ := callsReturn_drain more ((d.inputData ++ bytes).length + 1)
    { d with inputData := d.inputData ++ bytes } last
  refine ⟨last', fun ms f hcalls => ?_⟩
  have hsame : CallsReturn ⟨{ bytes := bytes } :: more, d, last⟩
      ((d.takesAll bytes).messages ++ ms) f ↔ CallsReturn ⟨more, _, last⟩ _ f :=
    callsReturn_congr hread
  exact hsame.mpr ((hdrain _ f).mpr ⟨ms, rfl, hcalls⟩)

/-- The call that waits when the stream ends throws. -/
theorem callsReturn_end {read : Read} (heof : (read.eofInRead || read.eofInBegin) = true)
    (hwait : frontUnsigned d.version1Flag d.inputData = .incomplete) (last : DataMessage)
    (more : List Read) : CallsReturn ⟨read :: more, d, last⟩ [] .inputStreamFailed := by
  have hread : readMessage (read :: more) d last = _ := readMessage_incomplete hwait
  rw [if_pos heof] at hread
  exact .failed hread

end Calls

/-- Each line that is no longer in the input of a `tntpubSend` has become a message. -/
structure Sending (topic stdin left : Bytes) (c : Client) : Prop where
  sent : c.accepted.map DataMessage.data ++ linesOf newline left = linesOf newline stdin
  plain : ∀ m ∈ c.accepted, m.isDataMessage = true ∧ m.topic = { main := topic }

/-- A `tntpubRead` has sent its subscriptions only, and has printed what its calls of
`readMessage` have returned, which throws when the stream ends. -/
structure Receiving (type : SubscriptionType) (topics : List Bytes) (p : TntPubRead)
    (c : Client) : Prop where
  options : subscriptionTypeOf p.byPrefix p.regex = type
  todo : p.topics ⊆ topics
  accepted : ∀ m ∈ c.accepted, ∃ o, ∃ topic ∈ topics,
    m = DataMessage.subscribe o { main := topic } type []
  stdout : p.stdout = printed c.exchange.dispatched
  returned : CallsReturn ⟨p.reads ++ [Ending.emptyRead.read], {}, {}⟩ c.exchange.dispatched
    .inputStreamFailed
  waiting : c.connected = true →
    frontUnsigned c.deserializer.version1Flag c.deserializer.inputData = .incomplete ∧
    ∀ more, ∃ last, ∀ ms f, CallsReturn ⟨more, c.deserializer, last⟩ ms f →
      CallsReturn ⟨p.reads ++ more, {}, {}⟩ (c.exchange.dispatched ++ ms) f

/-- A tool with its client, as they were started by a command. -/
def Command.Works : Command → Tool → Client → Prop
  | .tntpubSend topic stdin, .tntpubSend topic' left, c =>
    topic' = topic ∧ Sending topic stdin left c
  | .tntpubRead byPrefix regex topics, .tntpubRead p, c =>
    Receiving (subscriptionTypeOf byPrefix regex) topics p c
  | _, _, _ => False

section Works

variable {topic stdin left msg : Bytes} {type : SubscriptionType} {topics : List Bytes}
  {p : TntPubRead} {c c' : Client} {command : Command} {tool : Tool}

theorem works_launch (command : Command) (haccepted : c.accepted = [])
    (hdispatched : c.exchange.dispatched = []) (hdeserializer : c.deserializer = {}) :
    command.Works command.launch c := by
  cases command with
  | tntpubSend topic stdin =>
    refine ⟨rfl, ?_, ?_⟩
    · rw [haccepted]
      rfl
    · rw [haccepted]
      nofun
  | tntpubRead byPrefix regex topics =>
    refine ⟨rfl, List.Subset.refl _, ?_, ?_, ?_, fun _ => ?_⟩
    · rw [haccepted]
      nofun
    · rw [hdispatched]
      rfl
    · rw [hdispatched]
      exact callsReturn_end (d := {}) rfl (framer false).front_nil {} []
    · rw [hdeserializer, hdispatched]
      exact ⟨(framer false).front_nil, fun more => ⟨{}, fun ms f hcalls => hcalls⟩⟩

theorem Sending.line {rest : Bytes} {o : Origin} (h : Sending topic stdin left c)
    (hline : getline newline left = some (msg, rest)) (haccepted : c'.accepted =
      c.accepted ++ [DataMessage.createPlain o { main := topic } msg]) :
    Sending topic stdin rest c' where
  sent := by
    rw [← h.sent, linesOf_getline hline, haccepted, List.map_append, List.append_assoc]
    rfl
  plain m hm := by
    rw [haccepted] at hm
    rcases List.mem_append.mp hm with hm | hm
    · exact h.plain m hm
    · obtain rfl := List.mem_singleton.mp hm
      exact ⟨rfl, rfl⟩

theorem Receiving.subscribed {first : Bytes} {rest : List Bytes} {o : Origin}
    (h : Receiving type topics p c) (htopics : p.topics = first :: rest)
    (haccepted : c'.accepted = c.accepted ++ [DataMessage.subscribe o { main := first }
      (subscriptionTypeOf p.byPrefix p.regex) []]) (hinput : c.KeepsInput c') :
    Receiving type topics { p with topics := rest } c' where
  options := h.options
  todo t ht := h.todo (htopics ▸ List.mem_cons_of_mem _ ht)
  accepted m hm := by
    rw [haccepted, h.options] at hm
    rcases List.mem_append.mp hm with hm | hm
    · exact h.accepted m hm
    · exact ⟨o, first, h.todo (htopics ▸ List.mem_cons_self), List.mem_singleton.mp hm⟩
  stdout := h.stdout.trans (by rw [hinput.dispatched])
  returned := by
    rw [hinput.dispatched]
    exact h.returned
  waiting hc := by
    have hsame := hinput.same hc
    rw [hsame.dispatched, hsame.deserializer]
    exact h.waiting (hsame.connected ▸ hc)

theorem Receiving.read {bytes : Bytes} (h : Receiving type topics p c)
    (hc : c.connected = true) (herr : (c.deserializer.takesAll bytes).error = none)
    (hrest : frontUnsigned c.deserializer.version1Flag (c.deserializer.takesAll bytes).rest =
      .incomplete) :
    Receiving type topics { p with
      reads := p.reads ++ [{ bytes := bytes }]
      stdout := p.stdout ++ printed (c.deserializer.takesAll bytes).messages }
      (c.onInput bytes .more) := by
  obtain ⟨hwait, hcalls⟩ := h.waiting hc
  obtain ⟨hdispatched, hdeserializer⟩ := onInput_taken bytes .more herr
  obtain ⟨d, hsame, hd | ⟨unreported, hending, hd⟩⟩ := Client.onInput_output c bytes .more
  · have hmore (more : List Read) : ∃ last, ∀ ms f, CallsReturn ⟨more,
          { c.deserializer with inputData := (c.deserializer.takesAll bytes).rest }, last⟩ ms f →
        CallsReturn ⟨p.reads ++ [{ bytes := bytes }] ++ more, {}, {}⟩
          (c.exchange.dispatched ++ (c.deserializer.takesAll bytes).messages ++ ms) f := by
      obtain ⟨last, hlast⟩ := hcalls ({ bytes := bytes } :: more)
      obtain ⟨last', hread⟩ := callsReturn_read bytes hwait last more
      refine ⟨last', fun ms f hms => ?_⟩
      rw [List.append_assoc, List.append_assoc]
      exact hlast _ f (hread ms f hms)
    refine ⟨h.options, h.todo, ?_, ?_, ?_, fun _ => ?_⟩
    · rw [hd, hsame.accepted]
      exact h.accepted
    · rw [hdispatched, h.stdout]
      simp [printed, putLines]
    · rw [hdispatched]
      obtain ⟨last, hlast⟩ := hmore [Ending.emptyRead.read]
      rw [← List.append_nil (c.exchange.dispatched ++ _)]
      exact hlast [] _ (callsReturn_end rfl hrest last [])
    · rw [hdispatched, hdeserializer]
      exact ⟨hrest, hmore⟩
  · cases hending

theorem Receiving.ended {read : Read} (h : Receiving type topics p c)
    (hc : c.connected = true) (heof : (read.eofInRead || read.eofInBegin) = true)
    (haccepted : c'.accepted = c.accepted)
    (hdispatched : c'.exchange.dispatched = c.exchange.dispatched) (hoff : c'.connected = false) :
    Receiving type topics { p with reads := p.reads ++ [read] } c' := by
  obtain ⟨hwait, hcalls⟩ := h.waiting hc
  refine ⟨h.options, h.todo, ?_, ?_, ?_, fun hon => ?_⟩
  · rw [haccepted]
    exact h.accepted
  · rw [hdispatched]
    exact h.stdout
  · obtain ⟨last, hlast⟩ := hcalls (read :: [Ending.emptyRead.read])
    have hend := hlast [] _ (callsReturn_end heof hwait last _)
    rw [List.append_nil] at hend
    rw [hdispatched, List.append_assoc]
    exact hend
  · rw [hoff] at hon
    cases hon

theorem works_closed (h : command.Works tool c) (haccepted : c'.accepted = c.accepted)
    (hdispatched : c'.exchange.dispatched = c.exchange.dispatched) (hoff : c'.connected = false) :
    command.Works tool c' := by
  match command, tool, h with
  | .tntpubSend topic stdin, .tntpubSend topic' left, ⟨htopic, hsending⟩ =>
    refine ⟨htopic, ?_, ?_⟩
    · rw [haccepted]
      exact hsending.sent
    · rw [haccepted]
      exact hsending.plain
  | .tntpubRead byPrefix regex topics, .tntpubRead p, h =>
    have h : Receiving (subscriptionTypeOf byPrefix regex) topics p c := h
    refine ⟨h.options, h.todo, ?_, ?_, ?_, fun hon => ?_⟩
    · rw [haccepted]
      exact h.accepted
    · rw [hdispatched]
      exact h.stdout
    · rw [hdispatched]
      exact h.returned
    · rw [hoff] at hon
      cases hon

end Works

end TntPub
