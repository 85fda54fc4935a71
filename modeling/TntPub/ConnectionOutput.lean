import TntPub.ClientOutput

namespace TntPub

def WholeFrames (accepted : List DataMessage) (bytes : Bytes) : Prop :=
  ∃ ms, (∀ m ∈ ms, m ∈ accepted) ∧ bytes = frames ms

/-- A stream that begins with a frame and goes on with frames, wherever it ends. -/
def BeginsFrames (accepted : List DataMessage) (bytes : Bytes) : Prop :=
  ∃ ms, (∀ m ∈ ms, m ∈ accepted) ∧ bytes <+: frames ms

section Streams

variable {accepted accepted' : List DataMessage} {xs ys : Bytes}

theorem WholeFrames.nil : WholeFrames accepted [] := ⟨[], by simp, rfl⟩

theorem WholeFrames.append (hx : WholeFrames accepted xs) (hy : WholeFrames accepted ys) :
    WholeFrames accepted (xs ++ ys) := by
  obtain ⟨ms, hms, rfl⟩ := hx
  obtain ⟨ns, hns, rfl⟩ := hy
  refine ⟨ms ++ ns, fun m hm => ?_, by rw [frames_append]⟩
  rcases List.mem_append.mp hm with hm | hm
  · exact hms m hm
  · exact hns m hm

theorem WholeFrames.mono (h : accepted ⊆ accepted') (hx : WholeFrames accepted xs) :
    WholeFrames accepted' xs := by
  obtain ⟨ms, hms, rfl⟩ := hx
  exact ⟨ms, fun m hm => h (hms m hm), rfl⟩

theorem WholeFrames.frame {m : DataMessage} (hm : m ∈ accepted) : WholeFrames accepted m.frame :=
  ⟨[m], by simpa using hm, by simp⟩

theorem BeginsFrames.mono (h : accepted ⊆ accepted') (hx : BeginsFrames accepted xs) :
    BeginsFrames accepted' xs := by
  obtain ⟨ms, hms, hpre⟩ := hx
  exact ⟨ms, fun m hm => h (hms m hm), hpre⟩

theorem WholeFrames.begins (h : WholeFrames accepted (xs ++ ys)) : BeginsFrames accepted xs := by
  obtain ⟨ms, hms, heq⟩ := h
  exact ⟨ms, hms, ys, heq⟩

end Streams

namespace Client

variable {c c' : Client}

/-- The present connection is at the boundary of a frame when `_outputBuffer` is written, and
no connection has begun anywhere else. -/
structure Separated (c : Client) : Prop where
  stream : c.connected = true → WholeFrames c.accepted (c.exchange.output ++ c.outputBuffer)
  closed : c.connected = false → c.pending = none ∧ BeginsFrames c.accepted c.exchange.output
  next : WholeFrames c.accepted c.outputBufferNext
  region : c.Region
  sync : c.autoSync = true → c.pending = none
  earlier : ∀ x ∈ c.earlier, BeginsFrames c.accepted x.output

theorem Separated.begins (h : c.Separated) : BeginsFrames c.accepted c.exchange.output := by
  cases hc : c.connected with
  | true => exact (h.stream hc).begins
  | false => exact (h.closed hc).2

theorem Separated.doSendMessage {m : DataMessage} {counts : List Nat} (h : c.Separated)
    (hc : c.connected = true) (hstep : c.doSendMessage m counts = some c') :
    c'.Separated ∧ c'.connected = true := by
  have hsub : c.accepted ⊆ c.accepted ++ [m] := List.subset_append_left _ _
  have hframe : WholeFrames (c.accepted ++ [m]) m.frame := .frame (by simp)
  have hstream := (h.stream hc).mono hsub
  have hearlier : ∀ x ∈ c.earlier, BeginsFrames (c.accepted ++ [m]) x.output :=
    fun x hx => (h.earlier x hx).mono hsub
  have hoff (p : Prop) (hoff : c.connected = false) : p := by
    rw [hc] at hoff
    cases hoff
  have hboth := hstream.append hframe
  rcases doSendMessage_cases hstep with ⟨hsync, rfl⟩ | ⟨hasync, hpending, rfl⟩ |
    ⟨hasync, hnone, rfl⟩
  · refine ⟨⟨fun _ => ?_, hoff _, h.next.mono hsub, ?_, h.sync, hearlier⟩, hc⟩
    · simpa [List.append_assoc] using hboth
    · intro region hregion
      rw [h.sync hsync] at hregion
      cases hregion
  · exact ⟨⟨fun _ => hstream, hoff _, (h.next.mono hsub).append hframe, h.region, h.sync,
      hearlier⟩, hc⟩
  · refine ⟨⟨fun _ => ?_, hoff _, h.next.mono hsub, ?_, fun hsync => ?_, hearlier⟩, hc⟩
    · simpa [List.append_assoc] using hboth
    · intro region hregion
      exact (Option.some.inj hregion).symm
    · rw [hasync] at hsync
      cases hsync

theorem Separated.flush {sw : Bool} {counts : List Nat} (h : c.Separated)
    (hc : c.connected = true) (hstep : { c with autoSync := sw }.flush counts = some c') :
    c'.Separated ∧ c'.connected = true := by
  obtain rfl := flush_eq (c := { c with autoSync := sw }) h.region hstep
  refine ⟨⟨fun _ => ?_, fun hoff => ?_, .nil, nofun, fun _ => rfl, h.earlier⟩, hc⟩
  · simpa using (h.stream hc).append h.next
  · rw [hc] at hoff
    cases hoff

theorem Separated.calls {l : List (ClientCall × List Nat)} (h : c.Separated)
    (hc : c.connected = true) (hstep : c.calls l = some c') :
    c'.Separated ∧ c'.connected = true :=
  calls_keep (fun c => c.Separated ∧ c.connected = true)
    (fun _ _ _ _ _ h hstep => h.1.doSendMessage h.2 hstep)
    (fun _ _ _ _ h hstep => h.1.flush h.2 hstep)
    (fun _ h => ⟨⟨h.1.stream, h.1.closed, h.1.next, h.1.region, nofun, h.1.earlier⟩, h.2⟩)
    ⟨h, hc⟩ hstep

theorem Separated.onOutput {count : Nat} {handler : List (ClientCall × List Nat)}
    (h : c.Separated) (hc : c.connected = true) (hstep : c.onOutput count handler = some c') :
    c'.Separated ∧ c'.connected = true := by
  have hstream := h.stream hc
  have hoff (p : Prop) (hoff : c.connected = false) : p := by
    rw [hc] at hoff
    cases hoff
  obtain ⟨hpending, ⟨-, hnext, hcalls⟩ | rfl⟩ := onOutput_cases h.region hstep
  · refine Separated.calls (c := { c with
      exchange := { c.exchange with output := c.exchange.output ++ c.outputBuffer }
      pending := none
      outputBuffer := []
      messagesSent := c.messagesSent ++ [(c.exchange.output ++ c.outputBuffer, c.accepted)] })
      ⟨fun _ => ?_, hoff _, h.next, nofun, fun _ => rfl, h.earlier⟩ hc hcalls
    simpa using hstream
  · refine ⟨⟨fun _ => ?_, hoff _, .nil, ?_, fun hsync => ?_, h.earlier⟩, hc⟩
    · rw [← List.append_assoc, List.append_assoc c.exchange.output, List.take_append_drop]
      exact hstream.append h.next
    · intro region hregion
      exact (Option.some.inj hregion).symm
    · rw [h.sync hsync] at hpending
      cases hpending

theorem Separated.closePeer (h : c.Separated) (unreported : Nat) :
    (c.closePeer unreported).Separated := by
  have hbegins : BeginsFrames c.accepted
      (c.exchange.output ++ (c.pending.getD []).take unreported) := by
    cases hp : c.pending with
    | none => simpa using h.begins
    | some region =>
      have hc : c.connected = true := by
        by_contra hoff
        have hnone := (h.closed (by simpa using hoff)).1
        rw [hp] at hnone
        cases hnone
      have hstream := h.stream hc
      rw [← h.region region hp, ← List.take_append_drop unreported region,
        ← List.append_assoc] at hstream
      exact hstream.begins
  exact ⟨nofun, fun _ => ⟨rfl, hbegins⟩, h.next, nofun, fun _ => rfl, h.earlier⟩

theorem Separated.inputError (h : c.Separated) (unreported : Nat) :
    (c.inputError unreported).Separated := by
  have hclosed := h.closePeer unreported
  exact ⟨nofun, hclosed.closed, .nil, nofun, hclosed.sync, hclosed.earlier⟩

theorem Separated.of_sameOutput (h : c.Separated) (hsame : SameOutput c c') :
    c'.Separated := by
  obtain ⟨h0, h1, h2, h3, h4, h5, h6, h7, h8⟩ := hsame
  exact ⟨by rw [h0, h2, h5, h7]; exact h.stream, by rw [h0, h1, h5, h7]; exact h.closed,
    by rw [h3, h5]; exact h.next, by rw [Region, h1, h2]; exact h.region,
    by rw [h4, h1]; exact h.sync, by rw [h5, h8]; exact h.earlier⟩

def LeavesWhole (c : Client) (e : ClientEvent) : Prop :=
  e.isConnect = true → WholeFrames c.accepted c.outputBuffer

theorem Separated.connect (h : c.Separated) (hwhole : WholeFrames c.accepted c.outputBuffer)
    (unreported : Nat) : (c.connect unreported).Separated := by
  have hclosed := h.closePeer unreported
  refine ⟨fun _ => hwhole, nofun, h.next, nofun, fun _ => rfl, fun x hx => ?_⟩
  rcases List.mem_append.mp hx with hx | hx
  · exact h.earlier x hx
  · obtain rfl := List.mem_singleton.mp hx
    exact hclosed.begins

theorem Separated.step {e : ClientEvent} (hwhole : LeavesWhole c e) (h : c.Separated)
    (hstep : c.step e = some c') : c'.Separated := by
  have hcases := step_cases hstep
  cases e with
  | call call counts => exact (h.calls hcases.1 hcases.2).1
  | output count handler => exact (h.onOutput hcases.1 hcases.2).1
  | endWriteFailed unreported =>
    obtain ⟨-, rfl⟩ := hcases
    exact h.closePeer unreported
  | beginWriteFailed count =>
    obtain ⟨hc, d, hd, -, rfl⟩ := hcases
    have hsep := (h.onOutput hc hd).1
    exact hsep.closePeer 0
  | input bytes ending =>
    obtain ⟨-, rfl⟩ := hcases
    obtain ⟨d, hsame, hd⟩ := onInput_output c bytes ending
    have hsep := h.of_sameOutput hsame
    rcases hd with hd | ⟨unreported, -, hd⟩
    · exact hd ▸ hsep
    · exact hd ▸ hsep.inputError unreported
  | endReadFailed unreported =>
    obtain ⟨-, rfl⟩ := hcases
    exact h.inputError unreported
  | close unreported =>
    obtain rfl : c' = c.closePeer unreported := hcases
    exact h.closePeer unreported
  | connect unreported =>
    obtain rfl : c' = c.connect unreported := hcases
    exact h.connect (hwhole rfl) unreported

theorem separated_new : ({} : Client).Separated :=
  ⟨nofun, fun _ => ⟨rfl, [], by simp, by simp⟩, .nil, nofun, nofun, nofun⟩

/-- If what the output buffer still holds at each `connect` is whole frames, every connection
carries whole frames from its first byte. -/
theorem output_begins_frames (es : List ClientEvent) (c : Client)
    (hwhole : Runs.Meets Client.step LeavesWhole {} es)
    (hrun : Runs.run Client.step {} es = some c) :
    ∀ x ∈ c.earlier ++ [c.exchange], BeginsFrames c.accepted x.output := by
  have h : c.Separated := Runs.invariant_of_meets Separated
    (fun _ _ _ hwhole h hstep => h.step hwhole hstep) separated_new hwhole hrun
  intro x hx
  rcases List.mem_append.mp hx with hx | hx
  · exact h.earlier x hx
  · obtain rfl := List.mem_singleton.mp hx
    exact h.begins

/-- Two connections with a message sent on each, of which the first writes `count` bytes. -/
def twoConnections (count : Nat) : List ClientEvent :=
  [.connect 0, .call (.sendMessage .greeting) [], .output count [], .close 0, .connect 0,
    .call (.sendMessage .greeting) [], .output 10 []]

theorem output_begins_frames_written :
    ∃ c, Runs.run Client.step {} (twoConnections 43) = some c ∧
      ∀ x ∈ c.earlier ++ [c.exchange], BeginsFrames c.accepted x.output := by
  have hrun : (Runs.run Client.step {} (twoConnections 43)).isSome := by decide +kernel
  have hempty : Runs.Meets Client.step
      (fun c e => e.isConnect = true → c.outputBuffer = []) {} (twoConnections 43) := by
    decide +kernel
  obtain ⟨c, hc⟩ := Option.isSome_iff_exists.mp hrun
  refine ⟨c, hc, output_begins_frames (twoConnections 43) c ?_ hc⟩
  exact hempty.mono fun c e h he => by rw [h he]; exact .nil

/-- The first byte of a frame is written, and the next connection begins with the second. -/
theorem not_output_begins_frames :
    ¬ ∀ es c, Runs.run Client.step {} es = some c →
      ∀ x ∈ c.earlier ++ [c.exchange], BeginsFrames c.accepted x.output := by
  intro h
  have hrun : ∃ c, Runs.run Client.step {} (twoConnections 1) = some c ∧
      c.accepted = [.greeting, .greeting] ∧
      c.exchange.output = (DataMessage.greeting.frame.drop 1).take 10 := by
    decide +kernel
  obtain ⟨c, hc, haccepted, houtput⟩ := hrun
  obtain ⟨ms, hms, more, hmore⟩ := h _ c hc c.exchange (by simp)
  have hhead := congrArg List.head? hmore
  have hsecond : (DataMessage.greeting.frame.drop 1).take 10 =
      0x75 :: ((DataMessage.greeting.frame.drop 2).take 9) := by decide
  have hfirst : DataMessage.greeting.frame = 0x32 :: DataMessage.greeting.frame.drop 1 := by decide
  rw [houtput, hsecond] at hhead
  cases ms with
  | nil => cases hhead
  | cons m ms =>
    have hm : m = .greeting := by simpa [haccepted] using hms m List.mem_cons_self
    rw [hm, frames_cons, hfirst] at hhead
    exact absurd hhead (by simp)

end Client

end TntPub
