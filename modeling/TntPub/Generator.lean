import TntPub.Failures

namespace TntPub

/-- What `pubGen` prints, without the seconds and the messages per second, which come from the
clock. -/
inductive Report
  | second (totalCount count countBulk : UInt32)
  | finished (totalCount countBulk : UInt32)
deriving DecidableEq

def Report.count : Report → Nat
  | second _ count _ => count.toNat
  | finished _ _ => 0

/-- The program `pubGen`; `started` is set when it is connected, `running` until `exit` of its
event loop is called or an exception leaves the loop. -/
structure PubGen where
  client : Client := {}
  topic : Bytes
  data : Bytes
  num : UInt32
  bulk : UInt32
  totalCount : UInt32 := 0
  count : UInt32 := 0
  countBulk : UInt32 := 0
  countPending : UInt32 := 0
  started : Bool := false
  running : Bool := true
  printed : List Report := []

namespace PubGen

/-- "randdom data ". -/
def randomData : Bytes :=
  [0x72, 0x61, 0x6e, 0x64, 0x64, 0x6f, 0x6d, 0x20, 0x64, 0x61, 0x74, 0x61, 0x20]

/-- The loop of the constructor, which runs once for each byte that is missing. -/
def fill : Nat → Bytes → Bytes
  | 0, data => data
  | missing + 1, data =>
    fill missing (data ++ [randomData.getD (data.length % randomData.length) 0])

def create (topic : Bytes) (num bulk size : UInt32) : PubGen where
  topic := topic
  data := fill size.toNat []
  num := num
  bulk := bulk

def plainMessage (g : PubGen) (o : Origin) : DataMessage :=
  DataMessage.createPlain o { main := g.topic } g.data

/-- The messages of one bulk and the times when they are made. -/
def batch (g : PubGen) (origins : Nat → Origin) (count : UInt32) : List DataMessage :=
  (List.range count.toNat).map fun n => g.plainMessage (origins n)

/-- `PubGen::send` as its calls of the client and what it leaves of the other members. -/
def send (g : PubGen) (origins : Nat → Origin) : List (ClientCall × List Nat) × PubGen :=
  let count := min g.num g.bulk
  if count = 0 then
    ([], { g with
      running := false
      printed := g.printed ++ [.finished g.totalCount g.countBulk] })
  else
    let g := if g.num > 0 then { g with num := g.num - count } else g
    ((g.batch origins count).map fun m => (.sendMessage m, []),
      { g with countBulk := g.countBulk + 1, countPending := count })

/-- `PubGen::send` when the first send of a bulk throws, which is the only one that begins a
write. -/
def sendThrows (g : PubGen) (origins : Nat → Origin) : Option (ClientCall × PubGen) :=
  let count := min g.num g.bulk
  if count = 0 then none
  else
    let g := if g.num > 0 then { g with num := g.num - count } else g
    some (.sendMessage (g.plainMessage (origins 0)), g)

/-- A bulk that was sent is counted. -/
def countBulkSent (g : PubGen) : PubGen :=
  { g with
    count := g.count + g.countPending
    totalCount := g.totalCount + g.countPending
    countPending := 0 }

def onMessagesSent (g : PubGen) (origins : Nat → Origin) :
    List (ClientCall × List Nat) × PubGen :=
  g.countBulkSent.send origins

def onTimeout (g : PubGen) : PubGen :=
  if g.count > 0 then
    { g with
      printed := g.printed ++ [.second g.totalCount g.count g.countBulk]
      countBulk := 0
      count := 0 }
  else g

def stopped (g : PubGen) : PubGen := { g with running := false }

def onClosed (g : PubGen) : PubGen := g.onTimeout.stopped

def after (g : PubGen) : Aftermath → PubGen
  | .goesOn => g
  | .closed => g.onClosed
  | .uncaught => g.stopped

def onConnected (g : PubGen) (origins : Nat → Origin) : Option PubGen :=
  let sent := { g with started := true }.send origins
  ((g.client.connect 0).calls sent.1).map fun c => { sent.2 with client := c }

/-- An exception out of `onConnected` ends the program and with it its client. -/
def onConnectedThrows (g : PubGen) (origins : Nat → Origin) : Option PubGen :=
  (sendThrows { g with started := true } origins).bind fun (call, sent) =>
    ((g.client.connect 0).callThrows [] call).map fun c =>
      stopped { sent with client := c.closePeer 0 }

/-- `Client::onOutput` with the slot of `messagesSent`. -/
def onOutput (g : PubGen) (count : Nat) (origins : Nat → Origin) : Option PubGen :=
  let sent := g.onMessagesSent origins
  (g.client.onOutput count sent.1).map fun c =>
    if g.client.messagesSent.length < c.messagesSent.length then { sent.2 with client := c }
    else { g with client := c }

/-- The same when the slot throws: `onOutput` closes the connection and does not say so. -/
def onOutputThrows (g : PubGen) (count : Nat) (origins : Nat → Origin) : Option PubGen :=
  (g.countBulkSent.sendThrows origins).bind fun (call, sent) =>
    (g.client.onOutput count []).bind fun c =>
      if g.client.messagesSent.length < c.messagesSent.length then
        (c.callThrows [] call).map fun c => { sent with client := c.closePeer 0 }
      else none

end PubGen

/-- The program may be ended at any time. -/
inductive PubGenEvent
  | connected (origins : Nat → Origin)
  | connectedThrows (origins : Nat → Origin)
  | output (count : Nat) (origins : Nat → Origin)
  | outputThrows (count : Nat) (origins : Nat → Origin)
  | timeout
  | closed
  | ended
  | other (e : ClientEvent)

/-- A send throws. -/
def PubGenEvent.throws : PubGenEvent → Bool
  | connectedThrows _ => true
  | outputThrows _ _ => true
  | _ => false

/-- What happens to the client of `pubGen` without a slot of its own. -/
def ClientEvent.isOther : ClientEvent → Bool
  | input _ _ => true
  | endWriteFailed _ => true
  | beginWriteFailed _ => true
  | endReadFailed _ => true
  | _ => false

namespace PubGen

/-- One event, if it can happen while the event loop runs. -/
def step (g : PubGen) : PubGenEvent → Option PubGen
  | .connected origins => if g.running && !g.started then g.onConnected origins else none
  | .connectedThrows origins =>
    if g.running && !g.started then g.onConnectedThrows origins else none
  | .output count origins =>
    if g.running && g.client.connected then g.onOutput count origins else none
  | .outputThrows count origins =>
    if g.running && g.client.connected then g.onOutputThrows count origins else none
  | .timeout => if g.running then some g.onTimeout else none
  | .closed => if g.running then some g.onClosed else none
  | .ended => if g.running then some g.stopped else none
  | .other e =>
    if g.running && e.isOther then
      (g.client.step e).map fun c => after { g with client := c } (g.client.aftermath e)
    else none

theorem onTimeout_same (g : PubGen) :
    g.onTimeout.client = g.client ∧ g.onTimeout.num = g.num ∧
      g.onTimeout.running = g.running := by
  unfold onTimeout
  split
  next => exact ⟨rfl, rfl, rfl⟩
  next => exact ⟨rfl, rfl, rfl⟩

theorem toNat_min (a b : UInt32) : (min a b).toNat = min a.toNat b.toNat := by
  show (if a ≤ b then a else b).toNat = _
  split
  next h =>
    have hle := UInt32.le_iff_toNat_le.mp h
    omega
  next h =>
    have hlt : ¬ a.toNat ≤ b.toNat := fun hle => h (UInt32.le_iff_toNat_le.mpr hle)
    omega

/-- Nothing is left to send, or a bulk that is not empty is taken from it. -/
theorem send_cases (g : PubGen) (origins : Nat → Origin) :
    ((g.num = 0 ∨ g.bulk = 0) ∧ g.sendThrows origins = none ∧ g.send origins = ([], { g with
      running := false
      printed := g.printed ++ [.finished g.totalCount g.countBulk] })) ∨
    ∃ count : UInt32, 0 < count.toNat ∧ count.toNat ≤ g.num.toNat ∧ 0 < g.bulk.toNat ∧
      g.send origins = ((g.batch origins count).map fun m => (.sendMessage m, []),
        { g with num := g.num - count, countBulk := g.countBulk + 1, countPending := count }) ∧
      g.sendThrows origins =
        some (.sendMessage (g.plainMessage (origins 0)), { g with num := g.num - count }) := by
  have hmin := toNat_min g.num g.bulk
  by_cases hzero : min g.num g.bulk = 0
  · left
    refine ⟨?_, by simp only [sendThrows, hzero, if_true], by simp only [send, hzero, if_true]⟩
    rw [hzero, UInt32.toNat_zero] at hmin
    rcases Nat.le_total g.num.toNat g.bulk.toNat with h | h
    · exact .inl (UInt32.toNat_inj.mp (by rw [UInt32.toNat_zero]; omega))
    · exact .inr (UInt32.toNat_inj.mp (by rw [UInt32.toNat_zero]; omega))
  · right
    have hpos : 0 < (min g.num g.bulk).toNat := by
      apply Nat.pos_of_ne_zero
      intro h
      exact hzero (UInt32.toNat_inj.mp h)
    have hnum : g.num > 0 := UInt32.lt_iff_toNat_lt.mpr (by rw [UInt32.toNat_zero]; omega)
    refine ⟨min g.num g.bulk, hpos, by omega, by omega, ?_, ?_⟩
    · simp only [send, if_neg hzero, if_pos hnum]
      rfl
    · simp only [sendThrows, if_neg hzero, if_pos hnum]
      rfl

end PubGen

end TntPub
