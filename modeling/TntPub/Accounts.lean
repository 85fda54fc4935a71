import TntPub.Generator
import TntPub.Delivery

namespace TntPub

namespace Client

variable {c c' : Client}

/-- Messages that an asynchronous client is told to send are passed on without waiting, and a
write is pending when there are any. -/
theorem sends_async (ms : List DataMessage) (hasync : c.autoSync = false) :
    ∃ c', c.calls (ms.map fun m => (.sendMessage m, [])) = some c' ∧ c'.autoSync = false ∧
      c'.messagesSent = c.messagesSent ∧ c'.accepted = c.accepted ++ ms ∧
      (c.pending.isSome = true ∨ ms ≠ [] → c'.pending.isSome = true) := by
  induction ms generalizing c with
  | nil =>
    exact ⟨c, rfl, hasync, rfl, (List.append_nil _).symm,
      fun h => h.resolve_right fun hne => hne rfl⟩
  | cons m ms ih =>
    have hfirst : ∃ d, c.doSendMessage m [] = some d ∧ d.autoSync = false ∧
        d.messagesSent = c.messagesSent ∧ d.accepted = c.accepted ++ [m] ∧
        d.pending.isSome = true := by
      simp only [doSendMessage, hasync, Bool.false_eq_true, if_false]
      by_cases hpending : c.pending.isSome = true
      · exact ⟨_, if_pos hpending, rfl, rfl, rfl, hpending⟩
      · exact ⟨_, if_neg hpending, rfl, rfl, rfl, rfl⟩
    obtain ⟨d, hd, hdasync, hdsent, hdaccepted, hdpending⟩ := hfirst
    obtain ⟨c', hrest, hasync', hsent, haccepted, hpending'⟩ := ih hdasync
    refine ⟨c', ?_, hasync', hsent.trans hdsent, ?_, fun _ => hpending' (.inl hdpending)⟩
    · simp only [List.map_cons, calls, call, hd, Option.bind_some]
      exact hrest
    · rw [haccepted, hdaccepted, List.append_assoc, List.singleton_append]

/-- The slots of `messagesSent` are called last, and only if the signal is emitted. -/
theorem onOutput_slots (c : Client) (count : Nat) (handler : List (ClientCall × List Nat)) :
    c.onOutput count handler = (c.onOutput count []).bind fun d =>
      if c.messagesSent.length < d.messagesSent.length then d.calls handler else some d := by
  unfold onOutput
  cases hend : c.endWrite count with
  | none => rfl
  | some d =>
    obtain ⟨region, -, -, rfl⟩ := endWrite_eq hend
    simp only [Option.bind_eq_bind, Option.bind_some, calls]
    split
    next =>
      split
      next => simp
      next => exact (if_neg (Nat.lt_irrefl _)).symm
    next =>
      split
      next => exact (if_neg (Nat.lt_irrefl _)).symm
      next => exact (if_neg (Nat.lt_irrefl _)).symm

/-- Without calls a client goes on as it was, or its connection is gone. -/
theorem other_step {e : ClientEvent} (hbuffered : c.connected = true → c.Buffered)
    (he : e.isOther = true) (h : c.step e = some c') :
    c.connected = true ∧ c'.accepted = c.accepted ∧ c'.autoSync = c.autoSync ∧
      (c'.connected = true → SameOutput c c') := by
  have hcases := step_cases h
  cases e with
  | input bytes ending =>
    obtain ⟨⟨hc, -⟩, rfl⟩ := hcases
    obtain ⟨d, hsame, hd | ⟨unreported, -, hd⟩⟩ := onInput_output c bytes ending
    · rw [hd]
      exact ⟨hc, hsame.accepted, hsame.autoSync, fun _ => hsame⟩
    · rw [hd]
      exact ⟨hc, hsame.accepted, hsame.autoSync, nofun⟩
  | endWriteFailed unreported =>
    obtain ⟨⟨hc, -⟩, rfl⟩ := hcases
    exact ⟨hc, rfl, rfl, nofun⟩
  | beginWriteFailed count =>
    obtain ⟨hc, d, hd, -, rfl⟩ := hcases
    obtain ⟨-, ⟨-, -, hcalls⟩ | hkept⟩ := onOutput_cases (hbuffered hc).region hd
    · rw [← Option.some.inj hcalls]
      exact ⟨hc, rfl, rfl, nofun⟩
    · rw [hkept]
      exact ⟨hc, rfl, rfl, nofun⟩
  | endReadFailed unreported =>
    obtain ⟨⟨hc, -⟩, rfl⟩ := hcases
    exact ⟨hc, rfl, rfl, nofun⟩
  | call call counts => cases he
  | output count handler => cases he
  | close unreported => cases he
  | connect unreported => cases he

end Client

namespace PubGen

/-- What the members of `pubGen` say about its client, where it began with `num` messages; a send
of a bulk of `broken` messages has thrown, or none has. -/
structure Accounts (topic data : Bytes) (num bulk : UInt32) (broken : Nat) (g : PubGen) :
    Prop where
  sameTopic : g.topic = topic
  sameData : g.data = data
  sameBulk : g.bulk = bulk
  waiting : g.started = false → g.client = {}
  async : g.client.autoSync = false
  messages : ∀ m ∈ g.client.accepted, ∃ o, m = DataMessage.createPlain o { main := topic } data
  silent : bulk = 0 → g.client.accepted = []
  left : g.num.toNat + g.totalCount.toNat + g.countPending.toNat + broken = num.toNat
  total : g.client.accepted.length =
    g.totalCount.toNat + g.countPending.toNat + if broken = 0 then 0 else 1
  whole : g.client.connected = true → broken = 0
  reported : (g.printed.map Report.count).sum + g.count.toNat = g.totalCount.toNat
  buffered : g.client.connected = true → g.client.Buffered
  busy : g.client.connected = true → g.running = true →
    0 < g.countPending.toNat ∧ g.client.pending.isSome = true ∧ 0 < g.bulk.toNat
  finished : ∀ sent writes, .finished sent writes ∈ g.printed → g.running = false ∧
    sent = g.totalCount ∧ (g.num = 0 ∨ g.bulk = 0) ∧ g.countPending = 0 ∧ broken = 0 ∧
    g.client.exchange.output = frames g.client.accepted

/-- The same when `send` is called: the client has written everything. -/
structure Ready (topic data : Bytes) (num bulk : UInt32) (g : PubGen) (c : Client) : Prop where
  sameTopic : g.topic = topic
  sameData : g.data = data
  sameBulk : g.bulk = bulk
  started : g.started = true
  async : c.autoSync = false
  messages : ∀ m ∈ c.accepted, ∃ o, m = DataMessage.createPlain o { main := topic } data
  silent : bulk = 0 → c.accepted = []
  left : g.num.toNat + g.totalCount.toNat = num.toNat
  total : c.accepted.length = g.totalCount.toNat
  nothing : g.countPending = 0
  reported : (g.printed.map Report.count).sum + g.count.toNat = g.totalCount.toNat
  buffered : c.Buffered
  idle : c.pending = none
  unfinished : ∀ sent writes, .finished sent writes ∉ g.printed

variable {topic data : Bytes} {num bulk : UInt32} {broken : Nat} {g g' : PubGen} {c c' : Client}

theorem accounts_create (topic : Bytes) (num bulk size : UInt32) :
    (create topic num bulk size).Accounts topic (create topic num bulk size).data num bulk 0 where
  sameTopic := rfl
  sameData := rfl
  sameBulk := rfl
  waiting _ := rfl
  async := rfl
  messages := nofun
  silent _ := rfl
  left := rfl
  total := rfl
  whole _ := rfl
  reported := rfl
  buffered := nofun
  busy := nofun
  finished := nofun

theorem Accounts.unfinished (h : g.Accounts topic data num bulk broken)
    (hrunning : g.running = true) : ∀ sent writes, .finished sent writes ∉ g.printed := by
  intro sent writes hprinted
  obtain ⟨hoff, -⟩ := h.finished sent writes hprinted
  rw [hrunning] at hoff
  cases hoff

theorem Accounts.onTimeout (h : g.Accounts topic data num bulk broken) :
    g.onTimeout.Accounts topic data num bulk broken := by
  unfold PubGen.onTimeout
  split
  next =>
    refine ⟨h.sameTopic, h.sameData, h.sameBulk, h.waiting, h.async, h.messages,
      h.silent, h.left, h.total, h.whole, ?_, h.buffered, h.busy, fun sent writes hprinted => ?_⟩
    · rw [← h.reported]
      simp [Report.count]
    · rcases List.mem_append.mp hprinted with hprinted | hprinted
      · exact h.finished sent writes hprinted
      · cases List.mem_singleton.mp hprinted
  next => exact h

theorem Accounts.stopped (h : g.Accounts topic data num bulk broken) :
    g.stopped.Accounts topic data num bulk broken := by
  refine ⟨h.sameTopic, h.sameData, h.sameBulk, h.waiting, h.async, h.messages, h.silent, h.left,
    h.total, h.whole, h.reported, h.buffered, nofun, fun sent writes hprinted => ?_⟩
  obtain ⟨-, hrest⟩ := h.finished sent writes hprinted
  exact ⟨rfl, hrest⟩

theorem Accounts.after (h : g.Accounts topic data num bulk broken) (aftermath : Aftermath) :
    (g.after aftermath).Accounts topic data num bulk broken := by
  cases aftermath with
  | goesOn => exact h
  | closed => exact h.onTimeout.stopped
  | uncaught => exact h.stopped

theorem Ready.whole (h : Ready topic data num bulk g c) :
    c.exchange.output = frames c.accepted := by
  obtain ⟨hbuffer, hnext⟩ := h.buffered.idle h.idle
  have hwhole := h.buffered.whole
  rwa [hbuffer, hnext, List.append_nil, List.append_nil] at hwhole

/-- The bulk that is sent is the one that is pending afterwards. -/
theorem Ready.send (h : Ready topic data num bulk g c) (origins : Nat → Origin) :
    ∃ c', c.calls (g.send origins).1 = some c' ∧ c'.messagesSent = c.messagesSent ∧
      Accounts topic data num bulk 0 { (g.send origins).2 with client := c' } := by
  rcases send_cases g origins with ⟨hzero, -, hsend⟩ | ⟨count, hpos, hle, hbulk, hsend, -⟩
  · rw [hsend]
    refine ⟨c, rfl, rfl, h.sameTopic, h.sameData, h.sameBulk, fun hoff => ?_, h.async,
      h.messages, h.silent, ?_, ?_, fun _ => rfl, ?_, fun _ => h.buffered, nofun,
      fun sent writes hprinted => ?_⟩
    · exact absurd (h.started.symm.trans hoff) (by simp)
    · rw [← h.left, h.nothing]
      rfl
    · rw [h.total, h.nothing]
      rfl
    · rw [← h.reported]
      simp [Report.count]
    · rcases List.mem_append.mp hprinted with hprinted | hprinted
      · exact absurd hprinted (h.unfinished sent writes)
      · cases List.mem_singleton.mp hprinted
        exact ⟨rfl, rfl, hzero, h.nothing, rfl, h.whole⟩
  · rw [hsend]
    obtain ⟨c', hcalls, hasync, hsent, haccepted, hpending⟩ :=
      Client.sends_async (g.batch origins count) h.async
    have hlength : (g.batch origins count).length = count.toNat := by simp [batch]
    have hnum : (g.num - count).toNat = g.num.toNat - count.toNat :=
      UInt32.toNat_sub_of_le _ _ (UInt32.le_iff_toNat_le.mpr hle)
    have hleft := h.left
    refine ⟨c', hcalls, hsent, h.sameTopic, h.sameData, h.sameBulk, fun hoff => ?_, hasync,
      fun m hm => ?_, fun hzero => ?_, ?_, ?_, fun _ => rfl, h.reported,
      fun _ => h.buffered.calls hcalls,
      fun _ _ => ⟨hpos, hpending (.inr ?_), hbulk⟩,
      fun sent writes hprinted => absurd hprinted (h.unfinished sent writes)⟩
    · exact absurd (h.started.symm.trans hoff) (by simp)
    · rw [haccepted] at hm
      rcases List.mem_append.mp hm with hm | hm
      · exact h.messages m hm
      · obtain ⟨n, -, rfl⟩ := List.mem_map.mp hm
        exact ⟨origins n, by rw [plainMessage, h.sameTopic, h.sameData]⟩
    · rw [h.sameBulk, hzero] at hbulk
      exact absurd hbulk (Nat.lt_irrefl 0)
    · show (g.num - count).toNat + g.totalCount.toNat + count.toNat + 0 = num.toNat
      rw [hnum]
      omega
    · show c'.accepted.length = g.totalCount.toNat + count.toNat + 0
      rw [haccepted, List.length_append, hlength, h.total, Nat.add_zero]
    · intro hnil
      rw [hnil] at hlength
      simp only [List.length_nil] at hlength
      omega

/-- When a bulk is broken off its first message is handed over, and the connection is closed. -/
theorem Ready.sendThrows {origins : Nat → Origin} {call : ClientCall}
    (h : Ready topic data num bulk g c) (hsend : g.sendThrows origins = some (call, g'))
    (hcall : c.callThrows [] call = some c') :
    ∃ broken, Accounts topic data num bulk broken { g' with client := c'.closePeer 0 } := by
  rcases send_cases g origins with ⟨-, hnone, -⟩ | ⟨count, hpos, hle, hbulk, -, hsome⟩
  · rw [hnone] at hsend
    cases hsend
  · rw [hsome] at hsend
    obtain ⟨rfl, rfl⟩ := Prod.mk.inj (Option.some.inj hsend)
    have haccepted : c'.accepted = c.accepted ++ [g.plainMessage (origins 0)] :=
      (Client.callThrows_kept hcall).1
    have hasync : c'.autoSync = c.autoSync := by
      simp only [Client.callThrows, Client.doSendMessageThrows, h.async, h.idle,
        Bool.false_eq_true, if_false, Option.isSome_none] at hcall
      rw [← Option.some.inj hcall, h.async]
    have hnum : (g.num - count).toNat = g.num.toNat - count.toNat :=
      UInt32.toNat_sub_of_le _ _ (UInt32.le_iff_toNat_le.mpr hle)
    have hleft := h.left
    refine ⟨count.toNat, h.sameTopic, h.sameData, h.sameBulk, fun hoff => ?_,
      hasync.trans h.async, fun m hm => ?_, fun hzero => ?_, ?_, ?_, nofun, h.reported, nofun,
      nofun, fun sent writes hprinted => absurd hprinted (h.unfinished sent writes)⟩
    · exact absurd (h.started.symm.trans hoff) (by simp)
    · have hm' : m ∈ c'.accepted := hm
      rw [haccepted] at hm'
      rcases List.mem_append.mp hm' with hm | hm
      · exact h.messages m hm
      · obtain rfl := List.mem_singleton.mp hm
        exact ⟨origins 0, by rw [plainMessage, h.sameTopic, h.sameData]⟩
    · rw [h.sameBulk, hzero] at hbulk
      exact absurd hbulk (Nat.lt_irrefl 0)
    · show (g.num - count).toNat + g.totalCount.toNat + g.countPending.toNat + count.toNat = _
      rw [hnum, h.nothing, UInt32.toNat_zero]
      omega
    · show c'.accepted.length = g.totalCount.toNat + g.countPending.toNat + _
      rw [haccepted, List.length_append, h.total, h.nothing, if_neg (by omega)]
      rfl

theorem Accounts.unbroken (h : g.Accounts topic data num bulk broken)
    (hstarted : g.started = false) : broken = 0 := by
  have htotal := h.total
  rw [h.waiting hstarted] at htotal
  by_contra hne
  rw [if_neg hne] at htotal
  simp only [List.length_nil] at htotal
  omega

theorem Accounts.connected (h : g.Accounts topic data num bulk broken)
    (hstarted : g.started = false) (hrunning : g.running = true) :
    Ready topic data num bulk { g with started := true } (g.client.connect 0) := by
  have hleft := h.left
  have htotal := h.total
  have hbroken := h.unbroken hstarted
  rw [h.waiting hstarted] at htotal ⊢
  simp only [List.length_nil] at htotal
  refine ⟨h.sameTopic, h.sameData, h.sameBulk, rfl, rfl, nofun, fun _ => rfl, ?_, ?_, ?_,
    h.reported, ⟨rfl, fun _ => ⟨rfl, rfl⟩, nofun, fun _ => rfl, nofun⟩, rfl,
    h.unfinished hrunning⟩
  · show g.num.toNat + g.totalCount.toNat = num.toNat
    omega
  · show 0 = g.totalCount.toNat
    omega
  · apply UInt32.toNat_inj.mp
    show g.countPending.toNat = 0
    omega

theorem Accounts.onConnected {origins : Nat → Origin} (h : g.Accounts topic data num bulk broken)
    (hstarted : g.started = false) (hrunning : g.running = true)
    (hstep : g.onConnected origins = some g') : g'.Accounts topic data num bulk broken := by
  have hready := h.connected hstarted hrunning
  rw [h.unbroken hstarted]
  obtain ⟨c, hcalls, -, haccounts⟩ := hready.send origins
  simp only [PubGen.onConnected, hcalls, Option.map_some] at hstep
  exact Option.some.inj hstep ▸ haccounts

/-- When everything is written, the client stands as before its first message. -/
theorem Accounts.ready (h : g.Accounts topic data num bulk broken) (hc : g.client.connected = true)
    (hrunning : g.running = true) (hnext : g.client.outputBufferNext = []) :
    Ready topic data num bulk g.countBulkSent
      { g.client with
        exchange := { g.client.exchange with
          output := g.client.exchange.output ++ g.client.outputBuffer }
        pending := none
        outputBuffer := []
        messagesSent := g.client.messagesSent ++
          [(g.client.exchange.output ++ g.client.outputBuffer, g.client.accepted)] } := by
  have hleft := h.left
  have htotal := h.total
  have hreported := h.reported
  have hbound := UInt32.toNat_lt num
  have hstarted : g.started = true := by
    by_contra hoff
    rw [h.waiting (by simpa using hoff)] at hc
    cases hc
  have hsum : (g.totalCount + g.countPending).toNat =
      g.totalCount.toNat + g.countPending.toNat := by
    rw [UInt32.toNat_add]
    exact Nat.mod_eq_of_lt (by omega)
  rw [h.whole hc, if_pos rfl, Nat.add_zero] at htotal
  rw [h.whole hc, Nat.add_zero] at hleft
  refine ⟨h.sameTopic, h.sameData, h.sameBulk, hstarted, h.async, h.messages, h.silent,
    ?_, htotal.trans hsum.symm, rfl, ?_, (h.buffered hc).emptied hnext, rfl,
    h.unfinished hrunning⟩
  · show g.num.toNat + (g.totalCount + g.countPending).toNat = num.toNat
    omega
  show (g.printed.map Report.count).sum + (g.count + g.countPending).toNat =
    (g.totalCount + g.countPending).toNat
  rw [hsum, UInt32.toNat_add, Nat.mod_eq_of_lt (by omega)]
  omega

/-- The accounts do not speak of what the client has still to write. -/
theorem Accounts.withClient (h : g.Accounts topic data num bulk broken)
    (hc : g.client.connected = true) (hrunning : g.running = true)
    (haccepted : c.accepted = g.client.accepted) (hasync : c.autoSync = g.client.autoSync)
    (hbuffered : c.connected = true → c.Buffered)
    (hpending : c.connected = true → c.pending.isSome = true) :
    Accounts topic data num bulk broken { g with client := c } := by
  refine ⟨h.sameTopic, h.sameData, h.sameBulk, fun hoff => ?_, hasync.trans h.async, ?_, ?_,
    h.left, ?_, fun _ => h.whole hc, h.reported, hbuffered, fun hc' _ => ?_,
    fun sent writes hprinted => absurd hprinted (h.unfinished hrunning sent writes)⟩
  · rw [h.waiting hoff] at hc
    cases hc
  · rw [haccepted]
    exact h.messages
  · rw [haccepted]
    exact h.silent
  · rw [haccepted]
    exact h.total
  · obtain ⟨hcount, -, hbulk⟩ := h.busy hc hrunning
    exact ⟨hcount, hpending hc', hbulk⟩

/-- When the client has written a bulk the next one is sent, else it goes on writing. -/
theorem Accounts.onOutput {count : Nat} (origins : Nat → Origin)
    (h : g.Accounts topic data num bulk broken) (hc : g.client.connected = true)
    (hrunning : g.running = true) (hd : g.client.onOutput count [] = some c) :
    ∃ g', g.onOutput count origins = some g' ∧ g'.Accounts topic data num bulk broken ∧
      ((∃ c', c.calls (g.onMessagesSent origins).1 = some c' ∧
          g' = { (g.onMessagesSent origins).2 with client := c' }) ∨
        g' = { g with client := c }) := by
  unfold PubGen.onOutput
  dsimp only
  rw [Client.onOutput_slots, hd, Option.bind_some]
  obtain ⟨-, ⟨-, hnext, hempty⟩ | hkept⟩ := Client.onOutput_cases (h.buffered hc).region hd
  · obtain ⟨c', hcalls, hsent, haccounts⟩ := (h.ready hc hrunning hnext).send origins
    obtain rfl := Option.some.inj hempty
    refine ⟨{ (g.onMessagesSent origins).2 with client := c' }, ?_, h.whole hc ▸ haccounts,
      .inl ⟨c', hcalls, rfl⟩⟩
    rw [if_pos (by simp)]
    refine Option.map_eq_some_iff.mpr ⟨c', hcalls, ?_⟩
    exact if_pos (by simp [hsent])
  · have hsame : ¬ g.client.messagesSent.length < c.messagesSent.length := by
      rw [hkept]
      exact Nat.lt_irrefl _
    have haccounts : Accounts topic data num bulk broken { g with client := c } := by
      apply h.withClient hc hrunning
      · rw [hkept]
      · rw [hkept]
      · exact fun _ => (h.buffered hc).onOutput hd
      · intro _
        rw [hkept]
        rfl
    refine ⟨{ g with client := c }, ?_, haccounts, .inr rfl⟩
    rw [if_neg hsame]
    exact congrArg some (if_neg hsame)

theorem onOutput_client {count : Nat} {origins : Nat → Origin}
    (h : g.onOutput count origins = some g') : ∃ c, g.client.onOutput count [] = some c := by
  obtain ⟨c, houtput, -⟩ := Option.map_eq_some_iff.mp h
  rw [Client.onOutput_slots] at houtput
  obtain ⟨d, hd, -⟩ := Option.bind_eq_some_iff.mp houtput
  exact ⟨d, hd⟩

theorem Accounts.other {e : ClientEvent} (h : g.Accounts topic data num bulk broken)
    (hrunning : g.running = true) (he : e.isOther = true) (hstep : g.client.step e = some c) :
    Accounts topic data num bulk broken { g with client := c } := by
  obtain ⟨hc, haccepted, hasync, hsame⟩ := Client.other_step h.buffered he hstep
  apply h.withClient hc hrunning haccepted hasync
  · exact fun hc' => (h.buffered hc).of_sameOutput (hsame hc')
  · intro hc'
    rw [(hsame hc').pending]
    exact (h.busy hc hrunning).2.1

theorem Accounts.step {e : PubGenEvent} (h : g.Accounts topic data num bulk broken)
    (he : e.throws = false) (hstep : g.step e = some g') :
    g'.Accounts topic data num bulk broken := by
  cases e with
  | connected origins =>
    obtain ⟨hguard, hconnected⟩ := Option.ite_none_right_eq_some.mp hstep
    have hflags : g.running = true ∧ g.started = false := by simpa using hguard
    exact h.onConnected hflags.2 hflags.1 hconnected
  | connectedThrows origins => cases he
  | output count origins =>
    obtain ⟨hguard, houtput⟩ := Option.ite_none_right_eq_some.mp hstep
    obtain ⟨hrunning, hc⟩ := Bool.and_eq_true_iff.mp hguard
    obtain ⟨c, hd⟩ := onOutput_client houtput
    obtain ⟨t, ht, haccounts, -⟩ := h.onOutput origins hc hrunning hd
    exact Option.some.inj (ht.symm.trans houtput) ▸ haccounts
  | outputThrows count origins => cases he
  | timeout =>
    obtain ⟨-, hg'⟩ := Option.ite_none_right_eq_some.mp hstep
    exact Option.some.inj hg' ▸ h.onTimeout
  | closed =>
    obtain ⟨-, hg'⟩ := Option.ite_none_right_eq_some.mp hstep
    exact Option.some.inj hg' ▸ h.onTimeout.stopped
  | ended =>
    obtain ⟨-, hg'⟩ := Option.ite_none_right_eq_some.mp hstep
    exact Option.some.inj hg' ▸ h.stopped
  | other e =>
    obtain ⟨hguard, hmap⟩ := Option.ite_none_right_eq_some.mp hstep
    obtain ⟨hrunning, hother⟩ := Bool.and_eq_true_iff.mp hguard
    obtain ⟨c, hc, rfl⟩ := Option.map_eq_some_iff.mp hmap
    exact (h.other hrunning hother hc).after _

/-- The slot of `messagesSent` that throws is called when everything is written. -/
theorem Accounts.onOutputThrows {count : Nat} {origins : Nat → Origin}
    (h : g.Accounts topic data num bulk broken) (hc : g.client.connected = true)
    (hrunning : g.running = true) (hthrows : g.onOutputThrows count origins = some g') :
    ∃ broken', g'.Accounts topic data num bulk broken' := by
  obtain ⟨⟨call, sent⟩, hsend, hthrows⟩ := Option.bind_eq_some_iff.mp hthrows
  obtain ⟨c, hd, hthrows⟩ := Option.bind_eq_some_iff.mp hthrows
  obtain ⟨hemitted, hmap⟩ := Option.ite_none_right_eq_some.mp hthrows
  obtain ⟨c', hcall, rfl⟩ := Option.map_eq_some_iff.mp hmap
  obtain ⟨-, ⟨-, hnext, hempty⟩ | hkept⟩ := Client.onOutput_cases (h.buffered hc).region hd
  · obtain rfl := Option.some.inj hempty
    exact (h.ready hc hrunning hnext).sendThrows hsend hcall
  · rw [hkept] at hemitted
    exact absurd hemitted (Nat.lt_irrefl _)

theorem Accounts.throws {e : PubGenEvent} (h : g.Accounts topic data num bulk broken)
    (he : e.throws = true) (hstep : g.step e = some g') :
    ∃ broken', g'.Accounts topic data num bulk broken' := by
  cases e with
  | connectedThrows origins =>
    obtain ⟨hguard, hconnected⟩ := Option.ite_none_right_eq_some.mp hstep
    have hflags : g.running = true ∧ g.started = false := by simpa using hguard
    obtain ⟨⟨call, sent⟩, hsend, hmap⟩ := Option.bind_eq_some_iff.mp hconnected
    obtain ⟨c, hcall, rfl⟩ := Option.map_eq_some_iff.mp hmap
    obtain ⟨broken', haccounts⟩ := (h.connected hflags.2 hflags.1).sendThrows hsend hcall
    exact ⟨broken', haccounts.stopped⟩
  | outputThrows count origins =>
    obtain ⟨hguard, houtput⟩ := Option.ite_none_right_eq_some.mp hstep
    obtain ⟨hrunning, hc⟩ := Bool.and_eq_true_iff.mp hguard
    exact h.onOutputThrows hc hrunning houtput
  | connected origins => cases he
  | output count origins => cases he
  | timeout => cases he
  | closed => cases he
  | ended => cases he
  | other e => cases he

theorem Accounts.any {e : PubGenEvent} (h : g.Accounts topic data num bulk broken)
    (hstep : g.step e = some g') : ∃ broken', g'.Accounts topic data num bulk broken' := by
  cases he : e.throws with
  | true => exact h.throws he hstep
  | false => exact ⟨broken, h.step he hstep⟩

/-- The size of the broken bulk follows from the numbers, and is 0 where no send throws. -/
theorem accounts_run {topic : Bytes} {num bulk size : UInt32} {es : List PubGenEvent}
    (h : Runs.run step (create topic num bulk size) es = some g) :
    ∃ broken, g.Accounts topic (create topic num bulk size).data num bulk broken ∧
      ((∀ e ∈ es, e.throws = false) → broken = 0) := by
  have hstart := accounts_create topic num bulk size
  have hkeep (t : PubGen) (e : PubGenEvent) (t' : PubGen)
      (ht : ∃ broken, t.Accounts topic (create topic num bulk size).data num bulk broken)
      (hstep : t.step e = some t') :
      ∃ broken, t'.Accounts topic (create topic num bulk size).data num bulk broken := by
    obtain ⟨broken, ht⟩ := ht
    exact ht.any hstep
  obtain ⟨broken, haccounts⟩ := Runs.invariant hkeep ⟨0, hstart⟩ h
  refine ⟨broken, haccounts, fun hnone => ?_⟩
  have hwhole : g.Accounts topic (create topic num bulk size).data num bulk 0 :=
    Runs.invariant_of_meets _ (P := fun _ e => e.throws = false)
      (fun _ _ _ he ht hstep => ht.step he hstep) hstart (Runs.meets_of_forall hnone) h
  have hleft := haccounts.left
  have hsame := hwhole.left
  omega

end PubGen

end TntPub
