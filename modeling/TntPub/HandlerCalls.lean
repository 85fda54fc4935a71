import TntPub.Handlers

namespace TntPub

open Framing

variable {σ : Type}

section Calls

variable {cs ds : List (HandlerCall σ)} {app app' : σ}

theorem runCalls_append_returned (ds : List (HandlerCall σ))
    (h : runCalls cs app = (.returned, app')) : runCalls (cs ++ ds) app = runCalls ds app' := by
  induction cs generalizing app with
  | nil =>
    obtain rfl := (Prod.mk.inj h).2
    rfl
  | cons c cs ih =>
    rw [runCalls] at h
    rw [List.cons_append, runCalls]
    split at h
    next hc => exact ih h
    next => cases (Prod.mk.inj h).1
    next => cases (Prod.mk.inj h).1

theorem runCalls_append_left {e : CallsEnd} (ds : List (HandlerCall σ))
    (h : runCalls cs app = (e, app')) (he : e ≠ .returned) :
    runCalls (cs ++ ds) app = (e, app') := by
  induction cs generalizing app with
  | nil => exact absurd (Prod.mk.inj h).1.symm he
  | cons c cs ih =>
    rw [runCalls] at h
    rw [List.cons_append, runCalls]
    split at h
    next hc => exact ih h
    next => exact h
    next => exact h

theorem exists_of_runCalls_destroyed {next : Member}
    (h : runCalls cs app = (.destroyed next, app')) : ∃ c ∈ cs, c.next = next := by
  induction cs generalizing app with
  | nil => cases (Prod.mk.inj h).1
  | cons c cs ih =>
    rw [runCalls] at h
    split at h
    next =>
      obtain ⟨d, hd, hnext⟩ := ih h
      exact ⟨d, List.mem_cons_of_mem c hd, hnext⟩
    next => exact ⟨c, List.mem_cons_self, CallsEnd.destroyed.inj (Prod.mk.inj h).1⟩
    next => cases (Prod.mk.inj h).1

end Calls

namespace Session

variable {r : Receiver σ} {app : σ} {rx : Regex}

/-- What a call leaves behind when these calls of handlers are all it does. -/
def settle (r : Receiver σ) : CallsEnd × σ → EStateM.Result Failure (Session σ) Unit
  | (.returned, app) => .ok () ⟨some r, app⟩
  | (.destroyed next, app) => .error (.useAfterFree next) ⟨none, app⟩
  | (.thrown e, app) => .error (.handler e) ⟨some r, app⟩

theorem invoke_eq (proc : ServiceProcedure σ) (m : DataMessage) :
    invoke proc m = match proc.called m with
      | none => pure ()
      | some call => runHandler call := by
  cases proc with
  | serviceFunction fn =>
    rw [invoke, ServiceProcedure.called]
    split <;> rfl
  | serviceMethod memFunc => rfl

/-- The slots alone: nothing of a destroyed client is used before the emission is over. -/
theorem emit_eq (slots : List (DataMessage → Handler σ)) (m : DataMessage) :
    emit slots m ⟨some r, app⟩ =
      match runCalls (Receiver.slotCalls slots m) app with
      | (.returned, app) => .ok () ⟨some r, app⟩
      | (.destroyed _, app) => .ok () ⟨none, app⟩
      | (.thrown e, app) => .error (.handler e) ⟨some r, app⟩ := by
  induction slots generalizing app with
  | nil => rfl
  | cons slot slots ih =>
    simp only [Receiver.slotCalls, List.map_cons, runCalls]
    simp only [emit, bind, EStateM.bind, runHandler]
    rcases slot m app with ⟨_ | _ | e, app'⟩
    · exact ih
    · rfl
    · rfl

theorem invokeCallbacks_destroyed (slots : List (Slot σ)) :
    invokeCallbacks rx slots ⟨none, app⟩ = .error (.useAfterFree .callbacks) ⟨none, app⟩ := by
  cases slots with
  | nil => rfl
  | cons slot slots => rfl

theorem invokeCallbacks_cons (slot : Slot σ) (slots : List (Slot σ)) :
    invokeCallbacks rx (slot :: slots) ⟨some r, app⟩ =
      if slot.topic.matchesTopic rx r.client.dataMessage.topic then
        (invoke slot.proc r.client.dataMessage >>= fun _ => invokeCallbacks rx slots)
          ⟨some r, app⟩
      else invokeCallbacks rx slots ⟨some r, app⟩ := by
  simp only [invokeCallbacks, access, bind, EStateM.bind]
  split <;> rfl

theorem callbackCalls_cons (slot : Slot σ) (slots : List (Slot σ)) (m : DataMessage) :
    Receiver.callbackCalls rx (slot :: slots) m =
      (if slot.topic.matchesTopic rx m.topic then
        (slot.proc.called m).map (⟨.callbacks, ·⟩)
      else none).toList ++ Receiver.callbackCalls rx slots m := by
  simp only [Receiver.callbackCalls, List.filterMap_cons]
  split
  next h => rw [h]; rfl
  next c h => rw [h]; rfl

theorem invokeCallbacks_eq (slots : List (Slot σ)) :
    invokeCallbacks rx slots ⟨some r, app⟩ =
      settle r (runCalls (Receiver.callbackCalls rx slots r.client.dataMessage) app) := by
  induction slots generalizing app with
  | nil => rfl
  | cons slot slots ih =>
    rw [invokeCallbacks_cons, callbackCalls_cons]
    split
    next hmatch =>
      rw [invoke_eq]
      cases slot.proc.called r.client.dataMessage with
      | none => exact ih
      | some call =>
        simp only [bind, EStateM.bind, runHandler, Option.map_some, Option.toList_some,
          List.singleton_append, runCalls]
        rcases call app with ⟨_ | _ | e, app'⟩
        · exact ih
        · exact invokeCallbacks_destroyed slots
        · rfl
    next hmatch => exact ih

/-- A client destroyed by a slot is used when `dispatchMessage` looks at the type of the
message, one destroyed by a callback when it looks for the next callback. -/
theorem dispatchMessage_eq :
    dispatchMessage rx ⟨some r, app⟩ =
      settle { r with client := r.client.dispatchMessage }
        (runCalls (Receiver.handlerCalls rx r r.client.dataMessage) app) := by
  have hemit : emit r.messageReceived r.client.dataMessage
      ⟨some { r with client := r.client.dispatchMessage }, app⟩ = _ := emit_eq _ _
  have hdispatch : dispatchMessage rx ⟨some r, app⟩ =
      (emit r.messageReceived r.client.dataMessage >>= fun _ =>
        access .dataMessage >>= fun r =>
          if r.client.dataMessage.type ≠ .data then pure ()
          else invokeCallbacks rx r.callbacks)
        ⟨some { r with client := r.client.dispatchMessage }, app⟩ := rfl
  rw [hdispatch, Receiver.handlerCalls]
  simp only [bind, EStateM.bind, hemit]
  cases hslots : runCalls (Receiver.slotCalls r.messageReceived r.client.dataMessage) app with
  | mk e app' =>
    cases e with
    | destroyed next =>
      obtain ⟨c, hc, rfl⟩ := exists_of_runCalls_destroyed hslots
      obtain ⟨slot, -, rfl⟩ := List.mem_map.mp hc
      rw [runCalls_append_left _ hslots (by simp)]
      rfl
    | thrown e =>
      rw [runCalls_append_left _ hslots (by simp)]
      rfl
    | returned =>
      rw [runCalls_append_returned _ hslots]
      have htype : r.client.dispatchMessage.dataMessage.type = r.client.dataMessage.type := rfl
      simp only [access, htype]
      split
      next => rfl
      next => exact invokeCallbacks_eq r.callbacks

/-- A client that has taken a message of `n` bytes from its deserializer. -/
def taken (c : Client) (m : DataMessage) (n : Nat) : Client :=
  { c with
    deserializer := { c.deserializer with inputData := c.deserializer.inputData.drop n }
    dataMessage := m }

theorem processMessage_taken {c : Client} {m : DataMessage} {n : Nat}
    (hf : frontUnsigned c.deserializer.version1Flag c.deserializer.inputData = .frame m n) :
    Deserializer.processMessage (fun m => set m) noSlots (c.deserializer, c.dataMessage) =
      .ok true ((taken c m n).deserializer, m) := by
  have hstep : Deserializer.processMessage (fun m => set m) noSlots
      (c.deserializer, c.dataMessage) = _ := Deserializer.processMessage_frame hf
  have hset : announce (fun m => set m) noSlots m c.dataMessage = .ok () m := rfl
  rw [hset] at hstep
  exact hstep

theorem processInput_frame {fuel n : Nat} {m : DataMessage}
    (hf : frontUnsigned r.client.deserializer.version1Flag r.client.deserializer.inputData =
      .frame m n) :
    processInput rx (fuel + 1) ⟨some r, app⟩ =
      (dispatchMessage rx >>= fun _ => deleted >>= fun deleted =>
        if deleted then pure true else processInput rx fuel)
        ⟨some { r with client := taken r.client m n }, app⟩ := by
  simp only [processInput, access, bind, EStateM.bind, processMessage_taken hf]
  rfl

theorem processInput_incomplete (rx : Regex) (fuel : Nat) (app : σ)
    (hf : frontUnsigned r.client.deserializer.version1Flag r.client.deserializer.inputData =
      .incomplete) :
    processInput rx (fuel + 1) ⟨some r, app⟩ = .ok false ⟨some r, app⟩ ∧
      r.client.processInput (fuel + 1) = (r.client, none) := by
  constructor
  · simp only [processInput, access, bind, EStateM.bind, Deserializer.processMessage_incomplete hf]
    rfl
  · simp only [Client.processInput, Deserializer.processMessage_incomplete hf]

theorem processInput_fail (rx : Regex) (fuel : Nat) (app : σ) {e : Exception}
    (hf : frontUnsigned r.client.deserializer.version1Flag r.client.deserializer.inputData =
      .fail e) :
    processInput rx (fuel + 1) ⟨some r, app⟩ =
        .error (.deserializer (.exception e)) ⟨some r, app⟩ ∧
      r.client.processInput (fuel + 1) = (r.client, some (.exception e)) := by
  constructor
  · simp only [processInput, access, bind, EStateM.bind, Deserializer.processMessage_fail hf]
    rfl
  · simp only [Client.processInput, Deserializer.processMessage_fail hf]

theorem clientProcessInput_frame {c : Client} {fuel n : Nat} {m : DataMessage}
    (hf : frontUnsigned c.deserializer.version1Flag c.deserializer.inputData = .frame m n) :
    c.processInput (fuel + 1) = (taken c m n).dispatchMessage.processInput fuel := by
  simp only [Client.processInput, processMessage_taken hf]
  rfl

/-- What the loop leaves behind when these are the calls of handlers it makes and this is
what it does without them. -/
def settleInput (r : Receiver σ) (c : Client) :
    CallsEnd × σ → Client × Option Interrupt → EStateM.Result Failure (Session σ) Bool
  | (.returned, app), (c, none) => .ok false ⟨some { r with client := c }, app⟩
  | (.returned, app), (c, some i) => .error (.deserializer i) ⟨some { r with client := c }, app⟩
  | (.destroyed next, app), _ => .error (.useAfterFree next) ⟨none, app⟩
  | (.thrown e, app), _ => .error (.handler e) ⟨some { r with client := c }, app⟩

theorem processInput_eq (rx : Regex) (fuel : Nat) (r : Receiver σ) (app : σ) :
    ∃ c, processInput rx fuel ⟨some r, app⟩ =
      settleInput r c
        (runCalls ((drainFuel (frontUnsigned r.client.deserializer.version1Flag) fuel
          r.client.deserializer.inputData).messages.flatMap (r.handlerCalls rx)) app)
        (r.client.processInput fuel) := by
  induction fuel generalizing r app with
  | zero => exact ⟨r.client, rfl⟩
  | succ fuel ih =>
    cases hf : frontUnsigned r.client.deserializer.version1Flag r.client.deserializer.inputData with
    | incomplete =>
      obtain ⟨hsession, hclient⟩ := processInput_incomplete rx fuel app hf
      refine ⟨r.client, ?_⟩
      rw [hsession, hclient, drainFuel, hf]
      rfl
    | fail e =>
      obtain ⟨hsession, hclient⟩ := processInput_fail rx fuel app hf
      refine ⟨r.client, ?_⟩
      rw [hsession, hclient, drainFuel, hf]
      rfl
    | frame m n =>
      have hdispatch : dispatchMessage rx ⟨some { r with client := taken r.client m n }, app⟩ =
          settle { r with client := (taken r.client m n).dispatchMessage }
            (runCalls (r.handlerCalls rx m) app) := dispatchMessage_eq
      rw [processInput_frame hf, clientProcessInput_frame hf]
      simp only [drainFuel, hf, Drained.prepend_messages, List.singleton_append,
        List.flatMap_cons, bind, EStateM.bind, hdispatch]
      cases hcalls : runCalls (r.handlerCalls rx m) app with
      | mk e app' =>
        cases e with
        | returned =>
          rw [runCalls_append_returned _ hcalls]
          exact ih { r with client := (taken r.client m n).dispatchMessage } app'
        | destroyed next =>
          rw [runCalls_append_left _ hcalls (by simp)]
          exact ⟨r.client, rfl⟩
        | thrown e =>
          rw [runCalls_append_left _ hcalls (by simp)]
          exact ⟨(taken r.client m n).dispatchMessage, rfl⟩

/-- A client that has added an input to its deserializer. -/
def begun (c : Client) (input : Bytes) : Client :=
  { c with
    reading := false
    deserializer := { c.deserializer with inputData := c.deserializer.inputData ++ input }
    exchange := { c.exchange with input := c.exchange.input ++ [input] } }

/-- The calls of handlers that the messages in an input are to bring about. -/
def inputCalls (rx : Regex) (r : Receiver σ) (input : Bytes) : List (HandlerCall σ) :=
  (r.client.deserializer.takesAll input).messages.flatMap (r.handlerCalls rx)

theorem clientOnInput_begun (c : Client) (input : Bytes) (ending : InputEnd) :
    c.onInput input ending =
      match (begun c input).processInput ((begun c input).deserializer.inputData.length + 1) with
      | (c, some _) => c
      | (c, none) =>
        match ending with
        | .more => { c with reading := true }
        | .eof => c
        | .failed unreported => c.inputError unreported := by
  simp only [Client.onInput, Deserializer.addData_all]
  rfl

theorem readInput_begun (r : Receiver σ) (input : Bytes) (ending : InputEnd) (app : σ) :
    readInput rx input ending ⟨some r, app⟩ =
      (processInput rx ((begun r.client input).deserializer.inputData.length + 1) >>= fun deleted =>
        if deleted then pure ()
        else access .peer >>= fun r =>
          match ending with
          | .more => setClient { r.client with reading := true }
          | .eof => pure ()
          | .failed unreported => setClient (r.client.inputError unreported))
        ⟨some { r with client := begun r.client input }, app⟩ := by
  simp only [readInput, Deserializer.addData_all]
  rfl

theorem readInput_eq (rx : Regex) (r : Receiver σ) (input : Bytes) (ending : InputEnd) (app : σ) :
    ∃ c, readInput rx input ending ⟨some r, app⟩ =
      match runCalls (inputCalls rx r input) app, (r.client.deserializer.takesAll input).error with
      | (.returned, app), none =>
        .ok () ⟨some { r with client := r.client.onInput input ending }, app⟩
      | (.returned, app), some e => .error (.deserializer (.exception e))
        ⟨some { r with client := r.client.onInput input ending }, app⟩
      | (.destroyed next, app), _ => .error (.useAfterFree next) ⟨none, app⟩
      | (.thrown e, app), _ => .error (.handler e) ⟨some { r with client := c }, app⟩ := by
  obtain ⟨c, hloop⟩ := processInput_eq rx
    ((begun r.client input).deserializer.inputData.length + 1)
    { r with client := begun r.client input } app
  obtain ⟨last, hclient⟩ := Client.processInput_eq
    ((begun r.client input).deserializer.inputData.length + 1) (begun r.client input)
  have htakes : drainFuel (frontUnsigned (begun r.client input).deserializer.version1Flag)
      ((begun r.client input).deserializer.inputData.length + 1)
      (begun r.client input).deserializer.inputData = r.client.deserializer.takesAll input := rfl
  have hcalls : ((r.client.deserializer.takesAll input).messages.flatMap
      (({ r with client := begun r.client input } : Receiver σ).handlerCalls rx)) =
      inputCalls rx r input := rfl
  simp only [htakes, hcalls] at hloop hclient
  refine ⟨c, ?_⟩
  rw [readInput_begun, clientOnInput_begun, hclient]
  simp only [bind, EStateM.bind, hloop, hclient]
  cases hrun : runCalls (inputCalls rx r input) app with
  | mk e app' =>
    cases e with
    | destroyed next => rfl
    | thrown e => rfl
    | returned =>
      cases (r.client.deserializer.takesAll input).error with
      | some e => rfl
      | none => cases ending <;> rfl

/-- Whether a run came to use a member of the destroyed client. -/
def usesDestroyed : EStateM.Result Failure (Session σ) Unit → Bool
  | .error (.useAfterFree _) _ => true
  | _ => false

theorem onInput_catch (input : Bytes) (ending : InputEnd) (unreported : Nat) (s : Session σ) :
    onInput rx input ending unreported s =
      match readInput rx input ending s with
      | .error (.handler .ioError) s =>
        (access .peer >>= fun r => setClient (r.client.inputError unreported)) s
      | result => result := rfl

/-- With handlers that return and leave the client alone it is as without them. -/
theorem onInput_returned {r : Receiver σ} {input : Bytes} {app app' : σ} (ending : InputEnd)
    (unreported : Nat) (hcalls : runCalls (inputCalls rx r input) app = (.returned, app'))
    (herr : (r.client.deserializer.takesAll input).error = none) :
    onInput rx input ending unreported ⟨some r, app⟩ =
      .ok () ⟨some { r with client := r.client.onInput input ending }, app'⟩ := by
  obtain ⟨c, hread⟩ := readInput_eq rx r input ending app
  rw [onInput_catch, hread, hcalls, herr]

theorem onInput_destroyed {r : Receiver σ} {input : Bytes} {app app' : σ} {next : Member}
    (ending : InputEnd) (unreported : Nat)
    (hcalls : runCalls (inputCalls rx r input) app = (.destroyed next, app')) :
    onInput rx input ending unreported ⟨some r, app⟩ =
      .error (.useAfterFree next) ⟨none, app'⟩ := by
  obtain ⟨c, hread⟩ := readInput_eq rx r input ending app
  rw [onInput_catch, hread, hcalls]

theorem onInput_survived {r : Receiver σ} {input : Bytes} {app : σ} (ending : InputEnd)
    (unreported : Nat)
    (hcalls : ∀ next app', runCalls (inputCalls rx r input) app ≠ (.destroyed next, app')) :
    usesDestroyed (onInput rx input ending unreported ⟨some r, app⟩) = false := by
  obtain ⟨c, hread⟩ := readInput_eq rx r input ending app
  rw [onInput_catch, hread]
  cases hrun : runCalls (inputCalls rx r input) app with
  | mk e app' =>
    cases e with
    | destroyed next => exact absurd hrun (hcalls next app')
    | thrown e => cases e <;> rfl
    | returned => cases (r.client.deserializer.takesAll input).error <;> rfl

theorem next_of_mem_inputCalls {r : Receiver σ} {input : Bytes} {c : HandlerCall σ}
    (h : c ∈ inputCalls rx r input) : c.next = .dataMessage ∨ c.next = .callbacks := by
  obtain ⟨m, -, hc⟩ := List.mem_flatMap.mp h
  rcases List.mem_append.mp hc with hc | hc
  · obtain ⟨slot, -, rfl⟩ := List.mem_map.mp hc
    exact .inl rfl
  · split at hc
    next => cases hc
    next =>
      obtain ⟨slot, -, hslot⟩ := List.mem_filterMap.mp hc
      split at hslot
      next =>
        obtain ⟨call, -, rfl⟩ := Option.map_eq_some_iff.mp hslot
        exact .inr rfl
      next => cases hslot

/-- No member of a destroyed client is used exactly if no handler that is called destroys the
client. Where one does, the type of the message or the callbacks are used next. -/
theorem usesDestroyed_iff (rx : Regex) (r : Receiver σ) (input : Bytes) (ending : InputEnd)
    (unreported : Nat) (app : σ) :
    (usesDestroyed (onInput rx input ending unreported ⟨some r, app⟩) = false ↔
        ∀ next app', runCalls (inputCalls rx r input) app ≠ (.destroyed next, app')) ∧
      ∀ next app', runCalls (inputCalls rx r input) app = (.destroyed next, app') →
        (next = .dataMessage ∨ next = .callbacks) ∧
        onInput rx input ending unreported ⟨some r, app⟩ =
          .error (.useAfterFree next) ⟨none, app'⟩ := by
  refine ⟨⟨fun hresult next app' hcalls => ?_, onInput_survived ending unreported⟩, ?_⟩
  · rw [onInput_destroyed ending unreported hcalls] at hresult
    cases hresult
  · intro next app' hcalls
    obtain ⟨c, hc, rfl⟩ := exists_of_runCalls_destroyed hcalls
    exact ⟨next_of_mem_inputCalls hc, onInput_destroyed ending unreported hcalls⟩

/-- A client whose only callback destroys it. -/
def destroyedByCallback : Receiver Unit where
  client := ({} : Client).connect 0
  callbacks := [{ proc := .serviceMethod fun _ => some fun _ => (.destroyed, ()) }]

/-- When the callback has returned, the loop over the callbacks goes on. -/
theorem not_usesDestroyed :
    ¬ ∀ (rx : Regex) (r : Receiver Unit) (input : Bytes) (ending : InputEnd) (unreported : Nat),
      usesDestroyed (onInput rx input ending unreported ⟨some r, ()⟩) = false := by
  intro h
  have hresult := h .literal destroyedByCallback
    ({ DataMessage.greeting with type := .data } : DataMessage).frame .more 0
  have hused : usesDestroyed (onInput .literal
      ({ DataMessage.greeting with type := .data } : DataMessage).frame .more 0
      ⟨some destroyedByCallback, ()⟩) = true := by
    decide +kernel
  rw [hused] at hresult
  cases hresult

end Session

end TntPub
