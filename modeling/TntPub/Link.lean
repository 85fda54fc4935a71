import TntPub.ConnectionInput
import TntPub.Fanout

namespace TntPub

open Framing

namespace Client

variable {c c' : Client}

/-- Everything the client has to write on its connection, from the first byte on. -/
def stream (c : Client) : Bytes := c.exchange.output ++ c.outputBuffer ++ c.outputBufferNext

def readCount (c : Client) : Nat := c.exchange.input.flatten.length

end Client

/-- Both directions between a client and its responder: `handled` are the messages the server
has handled from the client, `matched` those that matched its subscriptions, `read` is the
number of bytes the server has read, and `written` what its socket has sent. -/
structure Link (rx : Regex) (c : Client) (r : Responder) (handled matched : List DataMessage)
    (read : Nat) (written : Bytes) : Prop where
  buffered : c.Buffered
  reading : c.reading = true
  clientVersion1Flag : c.deserializer.version1Flag = false
  serverVersion1Flag : r.deserializer.version1Flag = false
  allowed : ∀ m ∈ c.accepted, m.Encodable ∧ m.isAccepted rx = true
  up : ∃ waiting, c.accepted = handled ++ waiting ∧
    frames waiting = r.deserializer.inputData ++ c.stream.drop read
  upCut : (framer false).front r.deserializer.inputData = .incomplete
  read_le : read ≤ c.stream.length
  matchedEncodable : ∀ m ∈ matched, m.Encodable
  down : ∃ waiting, matched = c.exchange.dispatched ++ waiting ∧
    frames waiting = c.deserializer.inputData ++ (written.drop c.readCount ++ r.outputBuffer)
  downCut : (framer false).front c.deserializer.inputData = .incomplete
  readCount_le : c.readCount ≤ written.length

section Cuts

variable {waiting : List DataMessage} {pending flight chunk : Bytes}

/-- The next bytes of a stream of frames complete some of them and leave a cut one. -/
theorem next_frames (hms : ∀ m ∈ waiting, m.Encodable) (h : frames waiting = pending ++ flight)
    (hchunk : chunk <+: flight) :
    ∃ taken left rest, waiting = taken ++ left ∧
      (framer false).drain (pending ++ chunk) = ⟨taken, rest, none⟩ ∧
      (framer false).front rest = .incomplete ∧
      frames left = rest ++ flight.drop chunk.length := by
  obtain ⟨more, rfl⟩ := hchunk
  have hprefix : pending ++ chunk <+: (codec false).encodeAll waiting :=
    ⟨more, by rw [List.append_assoc]; exact h.symm⟩
  obtain ⟨taken, left, rest, hsplit, hbytes, hfront, hdrain⟩ := Codec.split_of_prefix hms hprefix
  refine ⟨taken, left, rest, hsplit, hdrain, hfront, ?_⟩
  have hframes : frames taken ++ frames left = frames taken ++ (rest ++ more) := by
    rw [← frames_append, ← hsplit, h, ← List.append_assoc, ← List.append_assoc]
    exact congrArg (· ++ more) hbytes
  rw [List.drop_left]
  exact List.append_cancel_left hframes

end Cuts

namespace Link

variable {rx : Regex} {c c' : Client} {r r' : Responder} {handled matched : List DataMessage}
  {read : Nat} {written : Bytes}

theorem stream_eq (h : Link rx c r handled matched read written) :
    c.stream = frames c.accepted := h.buffered.whole

theorem client {new : List DataMessage} (h : Link rx c r handled matched read written)
    (hbuffered : c'.Buffered) (hsame : Client.SameInput c c')
    (haccepted : c'.accepted = c.accepted ++ new)
    (hnew : ∀ m ∈ new, m.Encodable ∧ m.isAccepted rx = true) :
    Link rx c' r handled matched read written := by
  have hstream : c'.stream = c.stream ++ frames new := by
    rw [Client.stream, hbuffered.whole, haccepted, frames_append, h.stream_eq]
  have hread := h.read_le
  have hcount : c'.readCount = c.readCount := by
    rw [Client.readCount, hsame.input, Client.readCount]
  obtain ⟨waiting, hsplit, hframes⟩ := h.up
  exact {
    buffered := hbuffered
    reading := hsame.reading.trans h.reading
    clientVersion1Flag := by rw [hsame.deserializer]; exact h.clientVersion1Flag
    serverVersion1Flag := h.serverVersion1Flag
    allowed := fun m hm => by
      rw [haccepted] at hm
      rcases List.mem_append.mp hm with hm | hm
      · exact h.allowed m hm
      · exact hnew m hm
    up := by
      refine ⟨waiting ++ new, by rw [haccepted, hsplit, List.append_assoc], ?_⟩
      rw [frames_append, hframes, hstream, List.drop_append_of_le_length hread, List.append_assoc]
    upCut := h.upCut
    read_le := by rw [hstream, List.length_append]; omega
    matchedEncodable := h.matchedEncodable
    down := by rw [hsame.dispatched, hsame.deserializer, hcount]; exact h.down
    downCut := by rw [hsame.deserializer]; exact h.downCut
    readCount_le := by rw [hcount]; exact h.readCount_le }

theorem clientInput {bytes : Bytes} (h : Link rx c r handled matched read written)
    (hbytes : bytes <+: written.drop c.readCount)
    (hsize : (c.deserializer.inputData ++ bytes).length < 2 ^ 32) :
    Link rx (c.onInput bytes .more) r handled matched read written := by
  obtain ⟨waiting, hmatched, hframes⟩ := h.down
  have hwaiting : ∀ m ∈ waiting, m.Encodable := fun m hm =>
    h.matchedEncodable m (by rw [hmatched]; exact List.mem_append_right _ hm)
  obtain ⟨taken, left, rest, rfl, hdrain, hfront, hleft⟩ :=
    next_frames hwaiting hframes (hbytes.trans (List.prefix_append _ r.outputBuffer))
  have htakes : c.deserializer.takesAll bytes = ⟨taken, rest, none⟩ := by
    rw [← hdrain, Deserializer.takesAll, h.clientVersion1Flag]
    exact Deserializer.drainFuel_frontUnsigned hsize
  obtain ⟨last, hlast⟩ := Client.onInput_eq c bytes .more
  rw [htakes] at hlast
  dsimp only at hlast
  have hlen : bytes.length ≤ written.length - c.readCount := by
    have hle := hbytes.length_le
    rwa [List.length_drop] at hle
  have hread := h.readCount_le
  have hcount : (c.onInput bytes .more).readCount = c.readCount + bytes.length := by
    rw [hlast]
    simp [Client.readCount, Client.afterInput]
  have hrest : (c.onInput bytes .more).deserializer = ⟨rest, false⟩ := by
    rw [hlast]
    simp only [Client.afterInput, htakes, h.clientVersion1Flag]
  have hdispatched : (c.onInput bytes .more).exchange.dispatched =
      c.exchange.dispatched ++ taken := by
    rw [hlast]
    simp only [Client.afterInput, htakes]
  obtain ⟨d, hsame, hd | ⟨unreported, hne, -⟩⟩ := Client.onInput_output c bytes .more
  swap
  · cases hne
  rw [← hd] at hsame
  have hstream : (c.onInput bytes .more).stream = c.stream := by
    rw [Client.stream, hsame.output, hsame.outputBuffer, hsame.outputBufferNext, Client.stream]
  exact {
    buffered := h.buffered.of_sameOutput hsame
    reading := by rw [hlast]
    clientVersion1Flag := by rw [hrest]
    serverVersion1Flag := h.serverVersion1Flag
    allowed := by rw [hsame.accepted]; exact h.allowed
    up := by rw [hsame.accepted, hstream]; exact h.up
    upCut := h.upCut
    read_le := by rw [hstream]; exact h.read_le
    matchedEncodable := h.matchedEncodable
    down := by
      refine ⟨left, by rw [hdispatched, hmatched, List.append_assoc], ?_⟩
      rw [hleft, hrest, hcount, List.drop_append_of_le_length (by rw [List.length_drop]; omega),
        List.drop_drop]
    downCut := by rw [hrest]; exact hfront
    readCount_le := by rw [hcount]; omega }

theorem fanout {new : List DataMessage} (h : Link rx c r handled matched read written)
    (hdeserializer : r'.deserializer = r.deserializer)
    (houtput : r'.outputBuffer = r.outputBuffer ++ frames new)
    (hnew : ∀ m ∈ new, m.Encodable) :
    Link rx c r' handled (matched ++ new) read written := by
  obtain ⟨waiting, hmatched, hframes⟩ := h.down
  exact { h with
    serverVersion1Flag := by rw [hdeserializer]; exact h.serverVersion1Flag
    up := by rw [hdeserializer]; exact h.up
    upCut := by rw [hdeserializer]; exact h.upCut
    matchedEncodable := fun m hm => by
      rcases List.mem_append.mp hm with hm | hm
      · exact h.matchedEncodable m hm
      · exact hnew m hm
    down := by
      refine ⟨waiting ++ new, by rw [hmatched, List.append_assoc], ?_⟩
      rw [frames_append, hframes, houtput]
      simp only [List.append_assoc] }

theorem serverInput {bytes : Bytes} (h : Link rx c r handled matched read written)
    (hbytes : bytes <+: c.stream.drop read)
    (hsize : (r.deserializer.inputData ++ bytes).length < 2 ^ 32) :
    ∃ taken rest, r.takes bytes = ⟨taken, rest, none⟩ ∧
      (∀ m ∈ taken, m.Encodable ∧ m.isAccepted rx = true) ∧
      ∀ r' new, r'.deserializer = { r.deserializer with inputData := rest } →
        r'.outputBuffer = r.outputBuffer ++ frames new → (∀ m ∈ new, m.Encodable) →
        Link rx c r' (handled ++ taken) (matched ++ new) (read + bytes.length) written := by
  obtain ⟨waiting, haccepted, hframes⟩ := h.up
  have hwaiting : ∀ m ∈ waiting, m.Encodable ∧ m.isAccepted rx = true := fun m hm =>
    h.allowed m (by rw [haccepted]; exact List.mem_append_right _ hm)
  obtain ⟨taken, left, rest, rfl, hdrain, hfront, hleft⟩ :=
    next_frames (fun m hm => (hwaiting m hm).1) hframes hbytes
  have htakes : r.takes bytes = ⟨taken, rest, none⟩ := by
    rw [← hdrain, Server.takes_eq_drain (by rw [h.serverVersion1Flag]; exact h.upCut) hsize,
      h.serverVersion1Flag]
  have hlen : bytes.length ≤ c.stream.length - read := by
    have hle := hbytes.length_le
    rwa [List.length_drop] at hle
  have hread := h.read_le
  refine ⟨taken, rest, htakes, fun m hm => hwaiting m (List.mem_append_left _ hm), ?_⟩
  intro r' new hdeserializer houtput hnew
  obtain ⟨waiting', hmatched, hframes'⟩ := h.down
  exact { h with
    serverVersion1Flag := by rw [hdeserializer]; exact h.serverVersion1Flag
    up := by
      refine ⟨left, by rw [haccepted, List.append_assoc], ?_⟩
      rw [hleft, hdeserializer, List.drop_drop]
    upCut := by rw [hdeserializer]; exact hfront
    read_le := by omega
    matchedEncodable := fun m hm => by
      rcases List.mem_append.mp hm with hm | hm
      · exact h.matchedEncodable m hm
      · exact hnew m hm
    down := by
      refine ⟨waiting' ++ new, by rw [hmatched, List.append_assoc], ?_⟩
      rw [frames_append, hframes', houtput]
      simp only [List.append_assoc] }

theorem serverOutput (h : Link rx c r handled matched read written) (count : Nat) :
    Link rx c { r with outputBuffer := r.outputBuffer.drop count } handled matched read
      (written ++ r.outputBuffer.take count) := by
  have hcount := h.readCount_le
  obtain ⟨waiting, hmatched, hframes⟩ := h.down
  exact { h with
    down := by
      refine ⟨waiting, hmatched, ?_⟩
      rw [hframes, List.drop_append_of_le_length hcount, List.append_assoc,
        List.take_append_drop]
    readCount_le := by rw [List.length_append]; omega }

theorem start (rx : Regex) : Link rx (({} : Client).connect 0) {} [] [] 0 [] where
  buffered := ⟨rfl, fun _ => ⟨rfl, rfl⟩, nofun, fun _ => rfl, nofun⟩
  reading := rfl
  clientVersion1Flag := rfl
  serverVersion1Flag := rfl
  allowed := nofun
  up := ⟨[], rfl, rfl⟩
  upCut := (framer false).front_nil
  read_le := Nat.zero_le _
  matchedEncodable := nofun
  down := ⟨[], rfl, rfl⟩
  downCut := (framer false).front_nil
  readCount_le := Nat.zero_le _

/-- What a client has handed to its socket is the front of what it has to write. -/
theorem handed_prefix (h : c.Buffered) :
    c.exchange.output ++ c.pending.getD [] <+: c.stream := by
  cases hp : c.pending with
  | none =>
    rw [Client.stream, List.append_assoc]
    exact (List.prefix_append_right_inj _).mpr List.nil_prefix
  | some region =>
    rw [Option.getD_some, h.region region hp]
    exact List.prefix_append _ _

end Link

end TntPub
