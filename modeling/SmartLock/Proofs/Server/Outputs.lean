/-
# What a server puts out

A fragment of a central makes a server write to the central's own session, close it, hand on a
command for it or tell that it is registered (`Reaction`, `reaction_onFragment`).  Everything else
makes it write and close links only (`mem_outputs_step`).
-/
import SmartLock.Proofs.Server.Sessions

namespace SmartLock

/-- The number of the session that an output is about. -/
def ServerOutput.session : ServerOutput → SessionId
  | .write id _ _ => id
  | .disconnect id => id
  | .registered id _ => id
  | .command id _ _ _ => id

namespace Server

/-- The outputs about a session. -/
def ownOutputs (id : SessionId) (outputs : List ServerOutput) : List ServerOutput :=
  outputs.filter (·.session = id)

@[simp] theorem ownOutputs_append (id : SessionId) (first second : List ServerOutput) :
    ownOutputs id (first ++ second) = ownOutputs id first ++ ownOutputs id second :=
  List.filter_append ..

/-- There are none if all outputs are about other sessions. -/
theorem ownOutputs_of_forall_ne {id : SessionId} {outputs : List ServerOutput}
    (h : ∀ output ∈ outputs, output.session ≠ id) : ownOutputs id outputs = [] :=
  List.filter_eq_nil_iff.mpr fun output hmem => by simpa using h output hmem

/-- They are all if all outputs are about it. -/
theorem ownOutputs_of_forall_eq {id : SessionId} {outputs : List ServerOutput}
    (h : ∀ output ∈ outputs, output.session = id) : ownOutputs id outputs = outputs :=
  List.filter_eq_self.mpr fun output hmem => by simpa using h output hmem

/-- What a fragment of the central with a given number can make a server put out, given what has
been received and with which result. -/
inductive Reaction (id : SessionId) (received : Received) (result : Except ServerError Unit) :
    ServerOutput → Prop
  | write (fragment : Bytes) (taken : Bool) : Reaction id received result (.write id fragment taken)
  | disconnect : Reaction id received result (.disconnect id)
  | command (item : ItemCode) (tag : String) (trigger : Option TriggerType) :
      Reaction id received result (.command id item tag trigger)
  /-- The central has registered, and been answered. -/
  | registered (secret : Key) (payload : Bytes) (authenticated : Bool)
      (hreceived : received = .complete (ItemCode.registration.code :: payload) authenticated)
      (hresult : result = .ok ()) : Reaction id received result (.registered id secret)

/-- Every reaction is about the session whose central has sent the fragment. -/
theorem Reaction.session {id : SessionId} {received : Received}
    {result : Except ServerError Unit} {output : ServerOutput}
    (h : Reaction id received result output) : output.session = id := by
  cases h <;> rfl

/-! ## Messages -/

section Messages

variable {host : ServerHost} {t : Turn} {payload : Bytes} {output : ServerOutput}

/-- Sending a message adds writes to its own session. -/
theorem mem_outputs_notify {op : OpCode} {item : ItemCode} {body : Bytes} {encrypted : Bool}
    (h : output ∈ (t.notify host op item body encrypted).outputs) :
    output ∈ t.outputs ∨ ∃ fragment taken, output = .write t.session.id fragment taken :=
  (List.mem_append.mp h).imp_right mem_writes

/-- So each output of sending a message has been there before, or is a reaction. -/
theorem Reaction.of_notify {id : SessionId} {received : Received}
    {result : Except ServerError Unit} {op : OpCode} {item : ItemCode} {body : Bytes}
    {encrypted : Bool} (h : output ∈ (t.notify host op item body encrypted).outputs)
    (hid : t.session.id = id) :
    output ∈ t.outputs ∨ Reaction id received result output := by
  rcases mem_outputs_notify h with h | ⟨fragment, taken, rfl⟩
  · exact .inl h
  · rw [hid]
    exact .inr (.write fragment taken)

variable (authenticated : Bool)

/-- What a registration puts out. -/
theorem reaction_onRegistration (h : output ∈ (onRegistration host t payload).outputs) :
    output ∈ t.outputs ∨
      Reaction t.session.id (.complete (ItemCode.registration.code :: payload) authenticated)
        (onRegistration host t payload).result output := by
  revert h
  simp only [onRegistration]
  split
  · exact .inl
  split
  · exact .inl
  split
  · exact .inl
  split
  · exact .inl
  · exact .inl
  · rename_i secret key hsecret hkey
    -- The answer is written in any case; whether the central is registered depends on its result.
    let keyed : Turn :=
      { t with
        station := { t.station with secret := secret }
        session := t.session.withSecret secret }
    have hid : keyed.session.id = t.session.id := rfl
    have hsent {result : Except ServerError Unit} (h : output ∈ (keyed.notify host .response
        .registration (registrationBody keyed.station key) false).outputs) :
        output ∈ t.outputs ∨ Reaction t.session.id
          (.complete (ItemCode.registration.code :: payload) authenticated) result output := by
      rcases Reaction.of_notify h hid with h | h
      · exact .inl h
      · exact .inr h
    intro h
    rcases result_notify host keyed .response .registration (registrationBody keyed.station key)
      false with hok | ⟨error, herror⟩
    · rw [andThen_of_ok hok] at h ⊢
      rcases List.mem_append.mp h with h | h
      · exact hsent h
      · rw [List.mem_singleton.mp h]
        exact .inr (.registered secret payload authenticated rfl hok)
    · rw [andThen_of_error herror] at h ⊢
      exact hsent h

/-- What a login puts out. -/
theorem reaction_onLogin (received : Received) (h : output ∈ (onLogin host t payload).outputs) :
    output ∈ t.outputs ∨
      Reaction t.session.id received (onLogin host t payload).result output := by
  generalize (onLogin host t payload).result = result
  simp only [onLogin] at h
  split at h
  · exact .inl h
  split at h
  · exact .inl h
  split at h
  · rcases List.mem_append.mp h with h | h
    · exact .inl h
    · rw [List.mem_singleton.mp h]
      exact .inr .disconnect
  · rcases result_notify host t .response .login (loginBody t.station) true with
      hok | ⟨error, herror⟩
    · rw [andThen_of_ok hok] at h
      dsimp only at h
      have hid : ((t.notify host .response .login (loginBody t.station) true).setState
          .running).session.id = t.session.id := Session.id_setState ..
      -- The setting, the status and the answer have been sent, from the last to the first.
      rcases Reaction.of_notify h hid with h | h
      · rcases Reaction.of_notify h hid with h | h
        · exact Reaction.of_notify h rfl
        · exact .inr h
      · exact .inr h
    · rw [andThen_of_error herror] at h
      exact Reaction.of_notify h rfl

/-- What a command puts out. -/
theorem reaction_onCommand {item : ItemCode} (received : Received)
    (h : output ∈ (onCommand host t item payload).outputs) :
    output ∈ t.outputs ∨
      Reaction t.session.id received (onCommand host t item payload).result output := by
  generalize (onCommand host t item payload).result = result
  unfold onCommand at h
  split at h
  · exact .inl h
  split at h
  · exact .inl h
  split at h
  · exact .inl h
  dsimp only at h
  split at h
  · rcases Reaction.of_notify h rfl with h | h
    · rcases List.mem_append.mp h with h | h
      · exact .inl h
      · rw [List.mem_singleton.mp h]
        exact .inr (.command ..)
    · exact .inr h
  · exact Reaction.of_notify h rfl

/-- What a whole message puts out. -/
theorem reaction_onMessage {message : Bytes} (h : output ∈ (onMessage host t message).outputs) :
    output ∈ t.outputs ∨ Reaction t.session.id (.complete message authenticated)
      (onMessage host t message).result output := by
  cases message with
  | nil => exact .inl h
  | cons code payload =>
      rw [onMessage] at h ⊢
      split at h
      · rename_i hcode
        rw [ItemCode.ofCode?_eq_some_iff.mp hcode]
        exact reaction_onRegistration authenticated h
      · exact reaction_onLogin _ h
      · exact reaction_onCommand _ h
      · exact reaction_onCommand _ h
      · exact reaction_onCommand _ h
      · exact reaction_onCommand _ h
      · exact .inl h

end Messages

/-- What a fragment puts out. -/
theorem reaction_onFragment {host : ServerHost} {station : Station} {session : Session}
    {fragment : Bytes} {output : ServerOutput}
    (h : output ∈ (onFragment host station session fragment).outputs) :
    Reaction session.id (session.channel.receive fragment).2
      (onFragment host station session fragment).result output := by
  rcases onFragment_cases host station session fragment with
    ⟨message, authenticated, hreceived, heq⟩ | ⟨hreceived, heq⟩ | ⟨-, heq⟩
  · rw [heq] at h ⊢
    rw [hreceived]
    exact (reaction_onMessage authenticated h).resolve_left List.not_mem_nil
  · rw [heq] at h ⊢
    rw [hreceived, List.mem_singleton.mp h]
    exact .disconnect
  · rw [heq] at h
    cases h

/-! ## Steps -/

/-- A greeting writes to its session. -/
theorem mem_outputs_greet {host : ServerHost} {station : Station} {session : Session}
    {output : ServerOutput} (h : output ∈ (greet host station session).outputs) :
    ∃ fragment taken, output = .write session.id fragment taken := by
  have hsent (h : output ∈ (Turn.notify host { station := station, session := session } .publish
      .initial session.nonce.toBytes false).outputs) :
      ∃ fragment taken, output = .write session.id fragment taken :=
    (mem_outputs_notify h).resolve_left List.not_mem_nil
  rw [greet, Turn.andThen] at h
  split at h
  · dsimp only at h
    split at h <;> exact hsent h
  · exact hsent h

/-- A notification of all sessions only adds writes, to sessions that run. -/
theorem outputs_notifySlots (host : ServerHost) (station : Station) (n : Notice)
    (outputs : List ServerOutput) (slots : List (Option Session)) :
    ∃ more, (notifySlots host station n outputs slots).2.1 = outputs ++ more ∧
      ∀ output ∈ more, ∃ session, some session ∈ slots ∧ session.state = .running ∧
        ∃ fragment taken, output = .write session.id fragment taken := by
  induction slots generalizing outputs with
  | nil => exact ⟨[], (List.append_nil _).symm, nofun⟩
  | cons slot rest ih =>
      cases slot with
      | none =>
          obtain ⟨more, heq, hmore⟩ := ih outputs
          refine ⟨more, heq, fun output hmem => ?_⟩
          obtain ⟨session, hsession, hwrite⟩ := hmore output hmem
          exact ⟨session, List.mem_cons_of_mem _ hsession, hwrite⟩
      | some first =>
          simp only [notifySlots]
          split
          · rename_i hrunning
            obtain ⟨more, heq, hmore⟩ := ih (Turn.notify host
              { station := station, session := first, outputs := outputs } n.op n.item n.body
              true).outputs
            refine ⟨_, heq.trans (List.append_assoc ..), fun output hmem => ?_⟩
            rcases List.mem_append.mp hmem with hmem | hmem
            · exact ⟨first, List.mem_cons_self, hrunning, mem_writes hmem⟩
            · obtain ⟨session, hsession, hwrite⟩ := hmore output hmem
              exact ⟨session, List.mem_cons_of_mem _ hsession, hwrite⟩
          · obtain ⟨more, heq, hmore⟩ := ih outputs
            refine ⟨more, heq, fun output hmem => ?_⟩
            obtain ⟨session, hsession, hwrite⟩ := hmore output hmem
            exact ⟨session, List.mem_cons_of_mem _ hsession, hwrite⟩

/-- So all that it puts out are such writes. -/
theorem mem_outputs_notifySlots {host : ServerHost} {station : Station} {n : Notice}
    {slots : List (Option Session)} {output : ServerOutput}
    (h : output ∈ (notifySlots host station n [] slots).2.1) :
    ∃ session, some session ∈ slots ∧ session.state = .running ∧
      ∃ fragment taken, output = .write session.id fragment taken := by
  obtain ⟨more, heq, hmore⟩ := outputs_notifySlots host station n [] slots
  rw [List.nil_append] at heq
  exact hmore output (heq ▸ h)

/-- A step puts out what a fragment puts out, or else it writes, or closes the links of sessions
whose logins take too long. -/
theorem mem_outputs_step {host : ServerHost} {s : Server} {request : Request}
    {output : ServerOutput} (h : output ∈ (s.step host request).outputs) :
    (∃ id fragment session, request = .receive id fragment ∧ s.session? id = some session ∧
        output ∈ (onFragment host s.station session fragment).outputs) ∨
      (∃ id fragment taken, output = .write id fragment taken) ∨
      ∃ now session, request = .update now ∧ session ∈ s.sessions ∧
        isLate s.station.loginTimeout now session = true ∧ output = .disconnect session.id := by
  cases request with
  | receive id fragment =>
      simp only [step, receive] at h
      cases hsession : s.session? id with
      | none =>
          rw [hsession] at h
          cases h
      | some session =>
          rw [hsession] at h
          exact .inl ⟨id, fragment, session, rfl, hsession, h⟩
  | loadKey key =>
      simp only [step] at h
      split at h <;> cases h
  | subscribed id now =>
      rcases subscribed_cases host s id now with ⟨error, -, hstep⟩ | ⟨-, -, -, hstep⟩
      · rw [hstep] at h
        cases h
      · rw [hstep] at h
        exact .inr (.inl ⟨_, mem_outputs_greet h⟩)
  | update now =>
      obtain ⟨session, hsession, hcheck⟩ := List.mem_flatMap.mp h
      unfold checkTime at hcheck
      split at hcheck
      · rename_i hlate
        exact .inr (.inr ⟨now, session, rfl, hsession, hlate, List.mem_singleton.mp hcheck⟩)
      · cases hcheck
  | notify id notice =>
      cases id with
      | none =>
          obtain ⟨session, -, -, hwrite⟩ := mem_outputs_notifySlots h
          exact .inr (.inl ⟨session.id, hwrite⟩)
      | some id =>
          simp only [step, notifyOne] at h
          cases hsession : s.session? id with
          | none =>
              rw [hsession] at h
              cases h
          | some session =>
              rw [hsession] at h
              exact .inr (.inl ⟨_, (mem_outputs_notify h).resolve_left List.not_mem_nil⟩)
  | begin model uuid => cases h
  | generateKeys => cases h
  | setRegistered secret => cases h
  | setMechStatus status => cases h
  | setMechSetting setting => cases h
  | setLoginTimeout milliseconds => cases h
  | setCurrentTime seconds now => cases h
  | disconnected id => cases h

/-- A server tells that a central is registered only when a registration of it succeeds. -/
theorem accepts_of_registered_mem {s : Server} {m : Moment} {id : SessionId} {secret : Key}
    (h : .registered id secret ∈ (s.step m.host m.request).outputs) :
    s.Accepts m id .registration := by
  rcases mem_outputs_step h with ⟨other, fragment, session, hrequest, hsession, hmem⟩ |
    ⟨other, fragment, taken, heq⟩ | ⟨now, session, -, -, -, heq⟩
  · obtain ⟨-, hid⟩ := mem_of_session? hsession
    cases reaction_onFragment hmem with
    | registered secret payload authenticated hreceived hresult =>
        rw [hid]
        refine ⟨⟨fragment, session, payload, authenticated, hrequest, hsession, hreceived⟩, ?_⟩
        rw [hrequest, receive_of_session? hsession]
        exact hresult
  · cases heq
  · cases heq

end Server

end SmartLock
