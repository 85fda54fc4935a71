import TntPub.EndToEnd
import TntPub.FrameLimits
import Mathlib.Data.Prod.Lex
import Mathlib.Algebra.Order.BigOperators.Group.List

namespace TntPub

open Framing

namespace Client

/-- What a client has still to write; the second buffer has to pass through the first. -/
def unsent (c : Client) : Nat :=
  c.outputBuffer.length + 2 * c.outputBufferNext.length + if c.pending.isSome then 1 else 0

variable {c c' : Client}

theorem unsent_onOutput {count : Nat} (h : c.Region) (hmoves : 0 < count ∨ c.outputBuffer = [])
    (hstep : c.onOutput count [] = some c') : c'.unsent < c.unsent := by
  obtain ⟨d, hd, hstep⟩ := Option.bind_eq_some_iff.mp hstep
  obtain ⟨region, hpending, hle, rfl⟩ := endWrite_eq hd
  obtain rfl := h region hpending
  have hsome : c.pending.isSome = true := by rw [hpending]; rfl
  have hlength : (c.outputBuffer.drop count).length = c.outputBuffer.length - count :=
    List.length_drop
  unfold unsent
  rw [if_pos hsome]
  dsimp only at hstep
  split at hstep
  next hempty =>
    have hnil := List.isEmpty_iff.mp hempty
    split at hstep
    next hnext =>
      obtain rfl := Option.some.inj hstep
      simp [hnil, List.isEmpty_iff.mp hnext]
    next hnext =>
      have hpos : 0 < c.outputBufferNext.length :=
        List.length_pos_iff.mpr (by simpa using hnext)
      obtain rfl := Option.some.inj hstep
      simp only [beginWrite, hnil, List.length_nil, Option.isSome_some, if_true]
      omega
  next hempty =>
    have hpos : 0 < (c.outputBuffer.drop count).length :=
      List.length_pos_iff.mpr (by simpa using hempty)
    have hcount : 0 < count := by
      rcases hmoves with hcount | hnil
      · exact hcount
      · rw [hnil, List.drop_nil] at hpos
        exact absurd hpos (Nat.lt_irrefl 0)
    split at hstep
    next hnext =>
      obtain rfl := Option.some.inj hstep
      simp only [beginWrite, Option.isSome_some, if_true]
      omega
    next hnext =>
      obtain rfl := Option.some.inj hstep
      simp only [beginWrite, Option.isSome_some, if_true, List.length_append, List.length_nil]
      omega

theorem onOutput_whole {region : Bytes} (hpending : c.pending = some region) :
    ∃ c', c.onOutput region.length [] = some c' := by
  simp only [onOutput, endWrite, hpending, Nat.le_refl, if_true, Option.bind_eq_bind,
    Option.bind_some]
  split
  next =>
    split
    next => exact ⟨_, rfl⟩
    next => exact ⟨_, rfl⟩
  next =>
    split
    next => exact ⟨_, rfl⟩
    next => exact ⟨_, rfl⟩

end Client

namespace System

variable {rx : Regex} {s s' : System} {i j : ResponderId} {e : SystemEvent}

/-- An event of the network alone: it moves some bytes, or it ends a write of none. -/
def moves (s : System) : SystemEvent → Bool
  | .connect _ => false
  | .call _ _ _ => false
  | .clientOutput i count handler =>
    handler.isEmpty && (decide (0 < count) || (s.clients i).outputBuffer.isEmpty)
  | .clientInput i size => !((s.toClient i).take size).isEmpty
  | .serverInput i size => !((s.toServer i).take size).isEmpty
  | .serverOutput i count =>
    (s.server.responders.find i).any fun r => !(r.outputBuffer.take count).isEmpty

def total (ids : List ResponderId) (f : ResponderId → Nat) : Nat := (ids.map f).sum

def queued (s : System) (i : ResponderId) : Nat :=
  match s.server.responders.find i with
  | none => 0
  | some r => r.outputBuffer.length

variable {ids : List ResponderId}

/-- The clients are the same ones, and they were told to send nothing more. -/
def SameClients (s s' : System) : Prop := ∀ j,
  (s'.clients j).connected = (s.clients j).connected ∧
    (s'.clients j).accepted = (s.clients j).accepted

theorem SameClients.trans {t : System} (h : SameClients s s') (h' : SameClients s' t) :
    SameClients s t :=
  fun j => ⟨(h' j).1.trans (h j).1, (h' j).2.trans (h j).2⟩

theorem Linked.mem_slots (h : Linked rx s) (hc : (s.clients i).connected = true) :
    i ∈ s.server.responders.slots := by
  obtain ⟨r, hr, -⟩ := h.connected i hc
  rw [s.server.responders.mem_slots, hr]
  rfl

end System

end TntPub
