import TntPub.Deployment

namespace TntPub

open Framing Broadcast

namespace Client

variable {c c' : Client}

/-- What a client has written, and what is in a pending write, is the front of what it was
given to send. -/
structure Sends (c : Client) : Prop where
  buffered : c.connected = true → c.Buffered
  handed : c.exchange.output ++ c.pending.getD [] <+: frames c.accepted
  encodable : ∀ m ∈ c.accepted, m.Encodable

theorem Sends.of_buffered {new : List DataMessage} (h : c.Sends) (hbuffered : c'.Buffered)
    (haccepted : c'.accepted = c.accepted ++ new) (hnew : ∀ m ∈ new, m.Encodable) : c'.Sends where
  buffered _ := hbuffered
  handed := hbuffered.handed
  encodable m hm := by
    rw [haccepted] at hm
    rcases List.mem_append.mp hm with hm | hm
    · exact h.encodable m hm
    · exact hnew m hm

theorem Sends.closePeer (h : c.Sends) (unreported : Nat) : (c.closePeer unreported).Sends where
  buffered := nofun
  handed := closePeer_handed unreported h.handed
  encodable := h.encodable

theorem Sends.inputError (h : c.Sends) (unreported : Nat) : (c.inputError unreported).Sends :=
  ⟨nofun, (h.closePeer unreported).handed, h.encodable⟩

theorem Sends.of_sameOutput (h : c.Sends) (hsame : SameOutput c c') : c'.Sends where
  buffered hc := (h.buffered (hsame.connected ▸ hc)).of_sameOutput hsame
  handed := by rw [hsame.output, hsame.pending, hsame.accepted]; exact h.handed
  encodable := by rw [hsame.accepted]; exact h.encodable

theorem Sends.input (h : c.Sends) (bytes : Bytes) (ending : InputEnd) :
    (c.onInput bytes ending).Sends ∧ (c.onInput bytes ending).accepted = c.accepted := by
  obtain ⟨d, hsame, hd | ⟨unreported, -, hd⟩⟩ := onInput_output c bytes ending
  · rw [hd]
    exact ⟨h.of_sameOutput hsame, hsame.accepted⟩
  · rw [hd]
    exact ⟨(h.of_sameOutput hsame).inputError unreported, hsame.accepted⟩

/-- The input side of a client is left alone, or its connection is gone. -/
structure KeepsInput (c c' : Client) : Prop where
  dispatched : c'.exchange.dispatched = c.exchange.dispatched
  input : c'.exchange.input = c.exchange.input
  same : c'.connected = true → SameInput c c'

theorem keepsInput_of_same (h : SameInput c c') : KeepsInput c c' :=
  ⟨h.dispatched, h.input, fun _ => h⟩

theorem call_encodable {l : List (ClientCall × List Nat)} (h : l.all (fun call => call.1.fits)) :
    ∀ call ∈ l, ∀ m, call.1.message = some m → m.Encodable := by
  intro call hcall m hm
  have hfits := List.all_eq_true.mp h call hcall
  rw [ClientCall.fits, hm] at hfits
  simpa using hfits

theorem Sends.step {e : ClientEvent} (h : c.Sends) (he : e.isLocal = true)
    (hstep : c.step e = some c') :
    c'.Sends ∧ (∃ new, c'.accepted = c.accepted ++ new) ∧ KeepsInput c c' := by
  have hcases := step_cases hstep
  have hsame (unreported : Nat) : (c.closePeer unreported).Sends ∧
      (∃ new, (c.closePeer unreported).accepted = c.accepted ++ new) ∧
      KeepsInput c (c.closePeer unreported) :=
    ⟨h.closePeer unreported, ⟨[], (List.append_nil _).symm⟩, rfl, rfl, nofun⟩
  cases e with
  | call call counts =>
    obtain ⟨hc, hcalls⟩ := hcases
    have hfits : call.fits = true := he
    obtain ⟨new, haccepted, hnew⟩ := (h.buffered hc).calls_accepted
      (call_encodable (by simpa using hfits)) hcalls
    exact ⟨h.of_buffered ((h.buffered hc).calls hcalls) haccepted hnew, ⟨new, haccepted⟩,
      keepsInput_of_same (calls_input hcalls)⟩
  | output count handler =>
    obtain ⟨hc, houtput⟩ := hcases
    obtain ⟨new, haccepted, hnew⟩ := (h.buffered hc).onOutput_accepted (call_encodable he) houtput
    exact ⟨h.of_buffered ((h.buffered hc).onOutput houtput) haccepted hnew, ⟨new, haccepted⟩,
      keepsInput_of_same (onOutput_input houtput)⟩
  | endWriteFailed unreported =>
    obtain ⟨-, rfl⟩ := hcases
    exact hsame unreported
  | beginWriteFailed count =>
    obtain ⟨hc, d, houtput, -, hclose⟩ := hcases
    obtain ⟨new, haccepted, hnew⟩ := (h.buffered hc).onOutput_accepted (call_encodable rfl) houtput
    have hd := h.of_buffered ((h.buffered hc).onOutput houtput) haccepted hnew
    rw [hclose]
    have hsame := onOutput_input houtput
    exact ⟨hd.closePeer 0, ⟨new, haccepted⟩, hsame.dispatched, hsame.input, nofun⟩
  | endReadFailed unreported =>
    obtain ⟨-, rfl⟩ := hcases
    exact ⟨h.inputError unreported, ⟨[], (List.append_nil _).symm⟩, rfl, rfl, nofun⟩
  | close unreported =>
    rw [hcases]
    exact hsame unreported
  | input bytes ending => cases he
  | connect unreported => cases he

theorem Sends.callThrows {call : ClientCall} {counts : List Nat} (h : c.Sends)
    (hc : c.connected = true) (hfits : call.fits = true)
    (hthrows : c.callThrows counts call = some c') (inInput : Bool) (unreported : Nat) :
    (c'.abandon inInput unreported).Sends ∧
      (c'.abandon inInput unreported).accepted = c.accepted ++ call.message.toList ∧
      KeepsInput c (c'.abandon inInput unreported) := by
  obtain ⟨haccepted, hsame⟩ := callThrows_kept hthrows
  have hclosed := closePeer_handed unreported ((h.buffered hc).callThrows hthrows)
  have hencodable : ∀ m ∈ c'.accepted, m.Encodable := by
    intro m hm
    rw [haccepted] at hm
    rcases List.mem_append.mp hm with hm | hm
    · exact h.encodable m hm
    · exact call_encodable (l := [(call, counts)]) (by simpa using hfits) (call, counts)
        List.mem_cons_self m (Option.mem_toList.mp hm)
  unfold Client.abandon
  split
  next => exact ⟨⟨nofun, hclosed, hencodable⟩, haccepted, hsame.dispatched, hsame.input, nofun⟩
  next => exact ⟨⟨nofun, hclosed, hencodable⟩, haccepted, hsame.dispatched, hsame.input, nofun⟩

/-- An input of whole frames and a cut one is dispatched as far as it goes. -/
theorem onInput_dispatched {bytes rest : Bytes} {taken : List DataMessage}
    (htakes : c.deserializer.takesAll bytes = ⟨taken, rest, none⟩) (ending : InputEnd) :
    (c.onInput bytes ending).exchange.dispatched = c.exchange.dispatched ++ taken ∧
      (c.onInput bytes ending).exchange.input = c.exchange.input ++ [bytes] ∧
      (c.onInput bytes ending).deserializer = { c.deserializer with inputData := rest } := by
  obtain ⟨last, hlast⟩ := onInput_eq c bytes ending
  rw [htakes] at hlast
  cases ending with
  | more => simp [hlast, afterInput, htakes]
  | eof => simp [hlast, afterInput, htakes]
  | failed unreported => simp [hlast, afterInput, htakes, inputError, closePeer, write]

end Client

theorem Hook.encodable_published {hook : Hook} {serial : UInt64} {log : Log}
    (hhook : ∀ id m k, m.Encodable → hook id m = some k → k.Encodable)
    (hlog : ∀ entry ∈ log, entry.2.Encodable) : ∀ m ∈ log.published hook serial, m.Encodable := by
  induction log generalizing serial with
  | nil => nofun
  | cons entry log ih =>
    obtain ⟨source, k⟩ := entry
    have hk : k.Encodable := hlog (source, k) List.mem_cons_self
    have hrest := fun e he => hlog e (List.mem_cons_of_mem _ he)
    intro m hm
    cases source with
    | none =>
      rcases List.mem_cons.mp hm with rfl | hm
      · exact hk
      · exact ih hrest m hm
    | some id =>
      simp only [Log.published] at hm
      split at hm
      next =>
        rcases List.mem_append.mp hm with hm | hm
        · exact hhook id _ m (Server.encodable_serial hk _) (Option.mem_toList.mp hm)
        · exact ih hrest m hm
      next => exact ih hrest m hm

/-- Both directions of a connection: what the server has handled of a client, and what the
client has dispatched, is the front of what it should be, and each side is at one place of the
stream as long as it reads. -/
structure Channel (c : Client) (handled matched : List DataMessage)
    (responder : Option Responder) (read : Nat) (written : Bytes) : Prop where
  sends : c.Sends
  handledFront : handled <+: c.accepted
  up : ∀ r, responder = some r → r.deserializer.version1Flag = false ∧
    (codec false).Reading c.accepted handled r.deserializer.inputData read
  dispatchedFront : c.exchange.dispatched <+: matched
  down : c.connected = true → c.reading = true → c.deserializer.version1Flag = false ∧
    (codec false).Reading matched c.exchange.dispatched c.deserializer.inputData c.readCount
  readCount_le : c.readCount ≤ written.length

namespace Channel

variable {c c' : Client} {handled matched taken : List DataMessage}
  {responder responder' : Option Responder} {read : Nat} {bytes written : Bytes}

theorem start (autoSync : Bool) :
    Channel (({ autoSync := autoSync } : Client).connect 0) [] [] (some {}) 0 [] where
  sends :=
    { buffered := fun _ => ⟨rfl, fun _ => ⟨rfl, rfl⟩, nofun, fun _ => rfl, nofun⟩
      handed := List.prefix_rfl
      encodable := nofun }
  handledFront := List.prefix_rfl
  up r hr := by
    obtain rfl := Option.some.inj hr
    exact ⟨rfl, Codec.reading_start _⟩
  dispatchedFront := List.prefix_rfl
  down _ _ := ⟨rfl, Codec.reading_start _⟩
  readCount_le := Nat.zero_le _

theorem idle : Channel {} [] [] none 0 [] where
  sends := ⟨nofun, List.prefix_rfl, nofun⟩
  handledFront := List.prefix_rfl
  up := nofun
  dispatchedFront := List.prefix_rfl
  down := nofun
  readCount_le := Nat.zero_le _

/-- A client may pass on more messages, as long as its input side stays as it is. -/
theorem passesOn {new : List DataMessage} (h : Channel c handled matched responder read written)
    (hsends : c'.Sends) (haccepted : c'.accepted = c.accepted ++ new)
    (hkeeps : Client.KeepsInput c c') : Channel c' handled matched responder read written := by
  obtain ⟨hdispatched, hinput, hsame⟩ := hkeeps
  have hcount : c'.readCount = c.readCount := by rw [Client.readCount, hinput, Client.readCount]
  refine ⟨hsends, ?_, fun r hr => ?_, ?_, fun hc hreading => ?_, hcount ▸ h.readCount_le⟩
  · rw [haccepted]
    exact h.handledFront.trans (List.prefix_append _ _)
  · obtain ⟨hversion, hup⟩ := h.up r hr
    rw [haccepted]
    exact ⟨hversion, hup.more new⟩
  · rw [hdispatched]
    exact h.dispatchedFront
  · have hkept := hsame hc
    rw [hkept.deserializer, hdispatched, hcount]
    exact h.down (hkept.connected ▸ hc) (hkept.reading ▸ hreading)

theorem client {e : ClientEvent} (h : Channel c handled matched responder read written)
    (he : e.isLocal = true) (hstep : c.step e = some c') :
    Channel c' handled matched responder read written := by
  obtain ⟨hsends, ⟨new, haccepted⟩, hkeeps⟩ := h.sends.step he hstep
  exact h.passesOn hsends haccepted hkeeps

theorem callThrows {call : ClientCall} {counts : List Nat}
    (h : Channel c handled matched responder read written) (hc : c.connected = true)
    (hfits : call.fits = true) (hthrows : c.callThrows counts call = some c') (inInput : Bool)
    (unreported : Nat) :
    Channel (c'.abandon inInput unreported) handled matched responder read written := by
  obtain ⟨hsends, haccepted, hkeeps⟩ := h.sends.callThrows hc hfits hthrows inInput unreported
  exact h.passesOn hsends haccepted hkeeps

/-- What a client takes from its input are the next messages that matched. -/
theorem takes (h : Channel c handled matched responder read written)
    (hc : c.connected = true) (hreading : c.reading = true)
    (hmatched : ∀ m ∈ matched, m.Encodable) (hwritten : written <+: frames matched)
    (hbytes : bytes <+: written.drop c.readCount)
    (hsize : (c.deserializer.inputData ++ bytes).length < 2 ^ 32) :
    ∃ taken rest, c.deserializer.takesAll bytes = ⟨taken, rest, none⟩ ∧
      c.exchange.dispatched ++ taken <+: matched ∧
      (codec false).Reading matched (c.exchange.dispatched ++ taken) rest
        (c.readCount + bytes.length) ∧ c.readCount + bytes.length ≤ written.length := by
  obtain ⟨hversion, hdown⟩ := h.down hc hreading
  obtain ⟨taken, rest, hdrain, ⟨left, hleft⟩, hnext⟩ :=
    hdown.next hmatched (hbytes.trans (hwritten.drop _))
  have htakes : c.deserializer.takesAll bytes = ⟨taken, rest, none⟩ := by
    rw [Deserializer.takesAll, hversion]
    exact (Deserializer.drainFuel_frontUnsigned hsize).trans hdrain
  refine ⟨taken, rest, htakes, ⟨left, hleft.symm⟩, hnext, ?_⟩
  have hle := hbytes.length_le
  rw [List.length_drop] at hle
  have hread := h.readCount_le
  omega

theorem slotThrows {returned : Nat} (h : Channel c handled matched responder read written)
    (hc : c.connected = true) (hreading : c.reading = true)
    (hmatched : ∀ m ∈ matched, m.Encodable) (hwritten : written <+: frames matched)
    (hbytes : bytes <+: written.drop c.readCount)
    (hsize : (c.deserializer.inputData ++ bytes).length < 2 ^ 32)
    (hthrows : c.onInputThrows bytes returned = some c') :
    Channel c' handled matched responder read written := by
  obtain ⟨taken, rest, htakes, hfront, -, hle⟩ :=
    h.takes hc hreading hmatched hwritten hbytes hsize
  obtain ⟨-, hoff, hinput, hdispatched, hsame⟩ := Client.onInputThrows_left hthrows
  rw [htakes] at hdispatched
  refine ⟨h.sends.of_sameOutput hsame, by rw [hsame.accepted]; exact h.handledFront,
    by rw [hsame.accepted]; exact h.up, ?_, fun _ hon => ?_, ?_⟩
  · rw [hdispatched]
    exact ((List.prefix_append_right_inj _).mpr (List.take_prefix _ _)).trans hfront
  · rw [hoff] at hon
    cases hon
  · rw [Client.readCount, hinput, List.flatten_concat, List.length_append]
    exact hle

theorem clientInput {ending : InputEnd} (h : Channel c handled matched responder read written)
    (hmatched : ∀ m ∈ matched, m.Encodable) (hwritten : written <+: frames matched)
    (hbytes : bytes <+: written.drop c.readCount)
    (hsize : (c.deserializer.inputData ++ bytes).length < 2 ^ 32)
    (hstep : c.step (.input bytes ending) = some c') :
    Channel c' handled matched responder read written := by
  obtain ⟨⟨hc, hreading⟩, rfl⟩ := Client.step_cases hstep
  obtain ⟨hversion, -⟩ := h.down hc hreading
  obtain ⟨taken, rest, htakes, hfront, hnext, hle⟩ :=
    h.takes hc hreading hmatched hwritten hbytes hsize
  obtain ⟨hdispatched, hinput, hdeserializer⟩ := Client.onInput_dispatched htakes ending
  obtain ⟨hsends, haccepted⟩ := h.sends.input bytes ending
  have hcount : (c.onInput bytes ending).readCount = c.readCount + bytes.length := by
    rw [Client.readCount, hinput, List.flatten_concat, List.length_append, Client.readCount]
  refine ⟨hsends, by rw [haccepted]; exact h.handledFront, by rw [haccepted]; exact h.up, ?_,
    fun _ _ => ?_, by rw [hcount]; exact hle⟩
  · rw [hdispatched]
    exact hfront
  · rw [hdispatched, hdeserializer, hcount]
    exact ⟨hversion, hnext⟩

/-- The server matches more messages, and has handled nothing of this client meanwhile. -/
theorem server {matched' : List DataMessage} {written' : Bytes}
    (h : Channel c handled matched responder read written) (hmatched : matched <+: matched')
    (hkept : ∀ r', responder' = some r' → ∃ r, responder = some r ∧
      r'.deserializer = r.deserializer) (hwritten : written <+: written') :
    Channel c handled matched' responder' read written' := by
  refine ⟨h.sends, h.handledFront, fun r' hr' => ?_, h.dispatchedFront.trans hmatched,
    fun hc hreading => ?_, h.readCount_le.trans hwritten.length_le⟩
  · obtain ⟨r, hr, hdeserializer⟩ := hkept r' hr'
    rw [hdeserializer]
    exact h.up r hr
  · obtain ⟨new, rfl⟩ := hmatched
    obtain ⟨hversion, hdown⟩ := h.down hc hreading
    exact ⟨hversion, hdown.more new⟩

/-- The server reads on, and handles all it takes unless the connection is closed. -/
theorem serverInput {r : Responder} (h : Channel c handled matched (some r) read written)
    (hbytes : bytes <+: (c.exchange.output ++ c.pending.getD []).drop read)
    (hsize : (r.deserializer.inputData ++ bytes).length < 2 ^ 32)
    (htaken : taken <+: (r.takes bytes).messages)
    (hresponder : ∀ r', responder' = some r' → taken = (r.takes bytes).messages ∧
      r'.deserializer = { r.deserializer with inputData := (r.takes bytes).rest }) :
    Channel c (handled ++ taken) matched responder' (read + bytes.length) written := by
  obtain ⟨hversion, hup⟩ := h.up r rfl
  obtain ⟨whole, rest, hdrain, ⟨left, hleft⟩, hnext⟩ :=
    hup.next h.sends.encodable (hbytes.trans (h.sends.handed.drop read))
  have htakes : r.takes bytes = ⟨whole, rest, none⟩ := by
    rw [Server.takes_eq_drain (by rw [hversion]; exact hup.cut) hsize, hversion]
    exact hdrain
  rw [htakes] at htaken hresponder
  refine ⟨h.sends, ?_, fun r' hr' => ?_, h.dispatchedFront, h.down, h.readCount_le⟩
  · rw [hleft, List.append_assoc]
    exact (List.prefix_append_right_inj _).mpr (htaken.trans (List.prefix_append _ _))
  · obtain ⟨rfl, hdeserializer⟩ := hresponder r' hr'
    rw [hdeserializer]
    exact ⟨hversion, hnext⟩

end Channel

/-- What a call has come to, also when it throws: its message is taken over. -/
theorem Deployment.step_calling {rx : Regex} {hook : Hook} {d d' : Deployment} {i : ResponderId}
    {call : ClientCall} {counts : List Nat} {throws : Bool}
    (h : d.step rx hook (.calling i call counts throws) = some d') :
    (d.clients i).connected = true ∧ ∃ c, d' = d.setClient i c ∧
      c.accepted = (d.clients i).accepted ++ call.message.toList ∧
      (d.clients i).KeepsInput c := by
  cases throws with
  | false =>
    obtain ⟨-, hmap⟩ := Option.ite_none_right_eq_some.mp h
    obtain ⟨c, hc, rfl⟩ := Option.map_eq_some_iff.mp hmap
    obtain ⟨hconnected, hcalls⟩ := Client.step_cases hc
    refine ⟨hconnected, c, rfl, (Client.accepted_of_calls hcalls).trans ?_,
      Client.keepsInput_of_same (Client.calls_input hcalls)⟩
    cases hm : call.message with
    | none => simp [hm]
    | some m => simp [hm]
  | true =>
    obtain ⟨⟨hconnected, -⟩, hmap⟩ := Option.ite_none_right_eq_some.mp h
    obtain ⟨c, hc, rfl⟩ := Option.map_eq_some_iff.mp hmap
    obtain ⟨haccepted, hkept⟩ := Client.callThrows_kept hc
    exact ⟨hconnected, _, rfl, haccepted, hkept.dispatched, hkept.input, nofun⟩

end TntPub
