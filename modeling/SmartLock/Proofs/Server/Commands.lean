/-
# Which commands are carried out

At each step of a run a server hands at most one command to its surroundings, and it does so exactly
when a fragment completes a well-formed command for a session that runs (`commands_run`).  Such a
session has a key, and its central has
logged in or registered before.  The message may have come encrypted, then its tag is right, or in
plain: `not_forall_command_authenticated` is a run in which a command in plain is carried out.
-/
import SmartLock.Proofs.Server.Outputs

namespace SmartLock.Server

/-! ## Commands in messages -/

/-- The items that are commands. -/
def isCommandItem : ItemCode → Bool
  | .lock | .unlock | .doorOpen | .doorClosed => true
  | _ => false

/-- The command that a message is: its item, its tag and its trigger.  The tag must be as long as
its size says. -/
def readCommand? : Bytes → Option (ItemCode × String × Option TriggerType)
  | code :: size :: rest =>
      match ItemCode.ofCode? code with
      | some item =>
          if isCommandItem item && decide (size.toNat ≤ rest.length) then
            some (item, readTag size.toNat (size :: rest))
          else none
      | none => none
  | _ => none

/-- The command that a message puts out when it comes to a session. -/
def commandOf (host : ServerHost) (session : Session) (message : Bytes) : List ServerOutput :=
  match readCommand? message with
  | some (item, tag, trigger) =>
      if session.state = .running ∧ host.handler.isSome = true then
        [.command session.id item tag trigger]
      else []
  | none => []

/-! ## Commands of one message -/

/-- A command counts as one. -/
theorem commands_command (id : SessionId) (item : ItemCode) (tag : String)
    (trigger : Option TriggerType) :
    commands [.command id item tag trigger] = [.command id item tag trigger] := rfl

/-- A command is put out exactly if it is among the commands that are. -/
theorem command_mem_commands {outputs : List ServerOutput} {id : SessionId} {item : ItemCode}
    {tag : String} {trigger : Option TriggerType} :
    .command id item tag trigger ∈ commands outputs ↔
      .command id item tag trigger ∈ outputs := by
  simp [commands, ServerOutput.isCommand]

/-- Among the commands there is nothing but commands. -/
theorem exists_of_mem_commands {outputs : List ServerOutput} {output : ServerOutput}
    (h : output ∈ commands outputs) :
    ∃ id item tag trigger, output = .command id item tag trigger := by
  have hcommand : output.isCommand = true := (List.mem_filter.mp h).2
  cases output with
  | command id item tag trigger => exact ⟨id, item, tag, trigger, rfl⟩
  | _ => cases hcommand

/-- What goes on puts no command out if no continuation does. -/
theorem commands_andThen (t : Turn) {next : Turn → Turn}
    (h : ∀ t, commands (next t).outputs = commands t.outputs) :
    commands (t.andThen next).outputs = commands t.outputs := by
  rw [Turn.andThen]
  split
  · exact h t
  · rfl

section Messages

variable (host : ServerHost) (t : Turn) (payload : Bytes)

/-- A registration puts no command out. -/
theorem commands_onRegistration :
    commands (onRegistration host t payload).outputs = commands t.outputs := by
  simp only [onRegistration]
  split
  · rfl
  split
  · rfl
  split
  · rfl
  split
  · rfl
  · rfl
  · rw [commands_andThen]
    · exact commands_notify ..
    · intro t
      rw [commands_append]
      exact List.append_nil _

/-- A login puts no command out. -/
theorem commands_onLogin : commands (onLogin host t payload).outputs = commands t.outputs := by
  simp only [onLogin]
  split
  · rfl
  split
  · rfl
  split
  · rw [Turn.fail, Turn.drop, commands_append]
    exact List.append_nil _
  · rw [commands_andThen]
    · exact commands_notify ..
    · intro t
      simp only [commands_notify]
      rfl

/-- A command is put out if its session runs, its tag is complete and somebody listens. -/
theorem commands_onCommand {item : ItemCode} (hitem : isCommandItem item = true) :
    commands (onCommand host t item payload).outputs =
      commands t.outputs ++ commandOf host t.session (item.code :: payload) := by
  unfold onCommand commandOf
  -- `onCommand` asks for the session first and for the tag second, `commandOf` the other way round.
  by_cases hrunning : t.session.state = .running
  · rw [if_neg (not_not_intro hrunning)]
    cases payload with
    | nil => exact (List.append_nil _).symm
    | cons size rest =>
        by_cases hsize : size.toNat ≤ rest.length
        · have hread : readCommand? (item.code :: size :: rest) =
              some (item, readTag size.toNat (size :: rest)) := by
            simp [readCommand?, hitem, hsize]
          have hlen : ¬ (size :: rest).length < size.toNat + 1 := by
            rw [List.length_cons]
            omega
          simp only [hread, if_neg hlen]
          rcases readTag size.toNat (size :: rest) with ⟨tag, trigger⟩
          cases hhandler : host.handler with
          | none => simp [hrunning]
          | some handler => simp [hrunning, commands_command]
        · have hread : readCommand? (item.code :: size :: rest) = none := by
            simp [readCommand?, hsize]
          have hlen : (size :: rest).length < size.toNat + 1 := by
            rw [List.length_cons]
            omega
          simp only [hread, if_pos hlen]
          exact (List.append_nil _).symm
  · rw [if_pos hrunning]
    split
    · rw [if_neg (fun h => hrunning h.1)]
      exact (List.append_nil _).symm
    · exact (List.append_nil _).symm

/-- A message about anything but a command is not read as one. -/
theorem readCommand?_eq_none {item : ItemCode} (hitem : isCommandItem item = false) :
    readCommand? (item.code :: payload) = none := by
  cases payload with
  | nil => rfl
  | cons size rest => simp [readCommand?, hitem]

/-- What a message about an item is dealt with as. -/
theorem onMessage_code (item : ItemCode) :
    onMessage host t (item.code :: payload) =
      if item = .registration then onRegistration host t payload
      else if item = .login then onLogin host t payload
      else if isCommandItem item then onCommand host t item payload
      else t := by
  rw [onMessage, ItemCode.ofCode?_code]
  cases item <;> rfl

/-- A message is one command at most. -/
theorem length_commandOf_le (session : Session) (message : Bytes) :
    (commandOf host session message).length ≤ 1 := by
  rw [commandOf]
  split
  · split
    · exact Nat.le_refl 1
    · exact Nat.zero_le 1
  · exact Nat.zero_le 1

/-- The commands that a whole message puts out. -/
theorem commands_onMessage (message : Bytes) :
    commands (onMessage host t message).outputs =
      commands t.outputs ++ commandOf host t.session message := by
  have hnone {message : Bytes} (h : readCommand? message = none) :
      commands t.outputs = commands t.outputs ++ commandOf host t.session message := by
    rw [commandOf, h, List.append_nil]
  cases message with
  | nil => exact hnone rfl
  | cons code payload =>
      cases hcode : ItemCode.ofCode? code with
      | none =>
          rw [onMessage, hcode]
          exact hnone (by cases payload <;> simp [readCommand?, hcode])
      | some item =>
          rw [ItemCode.ofCode?_eq_some_iff.mp hcode, onMessage_code]
          by_cases hregistration : item = .registration
          · rw [if_pos hregistration, commands_onRegistration]
            exact hnone (readCommand?_eq_none payload (by rw [hregistration]; rfl))
          · rw [if_neg hregistration]
            by_cases hlogin : item = .login
            · rw [if_pos hlogin, commands_onLogin]
              exact hnone (readCommand?_eq_none payload (by rw [hlogin]; rfl))
            · rw [if_neg hlogin]
              by_cases hitem : isCommandItem item = true
              · rw [if_pos hitem]
                exact commands_onCommand host t payload hitem
              · rw [if_neg hitem]
                exact hnone (readCommand?_eq_none payload (by simpa using hitem))

end Messages

/-! ## Commands of one step -/

/-- The commands that a fragment puts out. -/
theorem commands_onFragment (host : ServerHost) (station : Station) (session : Session)
    (fragment : Bytes) :
    commands (onFragment host station session fragment).outputs =
      match (session.channel.receive fragment).2 with
      | .complete message _ => commandOf host session message
      | _ => [] := by
  rw [onFragment]
  rcases session.channel.receive fragment with ⟨channel, received⟩
  cases received with
  | dropped => rfl
  | requireMore => rfl
  | skipping forged => cases forged <;> rfl
  | complete message authenticated => exact commands_onMessage ..

/-- Only fragments lead to commands. -/
theorem commands_step {host : ServerHost} {s : Server} {request : Request}
    (h : ∀ id fragment, request ≠ .receive id fragment) :
    commands (s.step host request).outputs = [] := by
  rw [commands, List.filter_eq_nil_iff]
  intro output hmem
  rcases mem_outputs_step hmem with ⟨id, fragment, session, hrequest, -⟩ |
    ⟨id, fragment, taken, rfl⟩ | ⟨now, session, -, -, -, rfl⟩
  · exact absurd hrequest (h id fragment)
  · simp [ServerOutput.isCommand]
  · simp [ServerOutput.isCommand]

/-- A step puts a command out exactly if it is the one of a message that a fragment completes for a
session that runs.  The message has come in plain, or encrypted and with the right tag. -/
theorem command_mem_step_iff {host : ServerHost} {s : Server} {request : Request}
    {id : SessionId} {item : ItemCode} {tag : String} {trigger : Option TriggerType} :
    .command id item tag trigger ∈ (s.step host request).outputs ↔
      ∃ fragment session message, request = .receive id fragment ∧
        s.session? id = some session ∧ session.state = .running ∧ host.handler.isSome = true ∧
        readCommand? message = some (item, tag, trigger) ∧
        (session.channel.Assembles fragment .plain message ∨
          session.channel.Authenticates fragment message) := by
  constructor
  · intro h
    rw [← command_mem_commands] at h
    cases request with
    | receive other fragment =>
        cases hsession : s.session? other with
        | none => simp [step, receive, hsession, commands] at h
        | some session =>
            rw [receive_of_session? hsession] at h
            rw [commands_onFragment] at h
            obtain ⟨-, hid⟩ := mem_of_session? hsession
            cases hreceived : (session.channel.receive fragment).2 with
            | complete message authenticated =>
                simp only [hreceived, commandOf] at h
                split at h
                · rename_i item' tag' trigger' hread
                  split at h
                  · rename_i hrunning
                    cases List.mem_singleton.mp h
                    refine ⟨fragment, session, message, by rw [hid], hid ▸ hsession, hrunning.1,
                      hrunning.2, hread, ?_⟩
                    rcases Channel.snd_receive_eq_complete_iff.mp hreceived with ⟨-, h⟩ | ⟨-, h⟩
                    · exact .inl h
                    · exact .inr h
                  · cases h
                · cases h
            | dropped => simp [hreceived] at h
            | requireMore => simp [hreceived] at h
            | skipping forged => simp [hreceived] at h
    | _ =>
        rw [commands_step (by simp)] at h
        cases h
  · rintro ⟨fragment, session, message, rfl, hsession, hrunning, hhandler, hread, hcomplete⟩
    have hreceived : ∃ authenticated,
        (session.channel.receive fragment).2 = .complete message authenticated := by
      rcases hcomplete with h | h
      · exact ⟨false, Channel.snd_receive_eq_complete_iff.mpr (.inl ⟨rfl, h⟩)⟩
      · exact ⟨true, Channel.snd_receive_eq_complete_iff.mpr (.inr ⟨rfl, h⟩)⟩
    obtain ⟨authenticated, hreceived⟩ := hreceived
    rw [← command_mem_commands, receive_of_session? hsession]
    rw [commands_onFragment, hreceived]
    simp [commandOf, hread, hrunning, hhandler, (mem_of_session? hsession).2]

/-- A step puts out one command at most. -/
theorem length_commands_step_le (host : ServerHost) (s : Server) (request : Request) :
    (commands (s.step host request).outputs).length ≤ 1 := by
  cases request with
  | receive id fragment =>
      cases hsession : s.session? id with
      | none => simp [step, receive, hsession, commands]
      | some session =>
          rw [receive_of_session? hsession, commands_onFragment]
          split
          · exact length_commandOf_le ..
          · exact Nat.zero_le 1
  | _ =>
      rw [commands_step (by simp)]
      exact Nat.zero_le 1

/-- The commands that a step puts out are this one alone exactly if it puts it out. -/
theorem commands_step_eq_singleton_iff {host : ServerHost} {s : Server} {request : Request}
    {id : SessionId} {item : ItemCode} {tag : String} {trigger : Option TriggerType} :
    commands (s.step host request).outputs = [.command id item tag trigger] ↔
      .command id item tag trigger ∈ (s.step host request).outputs := by
  rw [← command_mem_commands]
  constructor
  · intro h
    rw [h]
    exact List.mem_singleton_self _
  · intro h
    obtain ⟨command, hcommand⟩ := List.length_eq_one_iff.mp
      (Nat.le_antisymm (length_commands_step_le ..) (List.length_pos_of_mem h))
    rw [hcommand, List.mem_singleton] at h
    rw [hcommand, h]

/-! ## Commands of a run -/

/-- **When a command is carried out.**  Take a new server, any run and one more moment.  At that
moment one command at most is put out, and it is this one exactly if a fragment completes it then
for its session, and somebody listens.  The session runs at that moment and has a key, and its
central has logged in or registered before.  The message has been assembled in plain, or encrypted
with the right tag under the session's key.  At any other moment no command is put out. -/
theorem commands_run (random : RandomSource) (maxSessions : Nat) (ms : List Moment) (m : Moment) :
    let s := ((Server.new random maxSessions).run ms).1
    let done := commands (s.step m.host m.request).outputs
    (done = [] ∨ ∃ id item tag trigger, done = [.command id item tag trigger]) ∧
    ∀ id item tag trigger, done = [.command id item tag trigger] ↔
      ∃ fragment session message, m.request = .receive id fragment ∧
        m.host.handler.isSome = true ∧ s.session? id = some session ∧
        session.state = .running ∧ session.channel.cipher.hasKey = true ∧
        ((Server.new random maxSessions).Happens ms fun s m =>
          s.Accepts m id .login ∨ s.Accepts m id .registration) ∧
        readCommand? message = some (item, tag, trigger) ∧
        (session.channel.Assembles fragment .plain message ∨
          session.channel.Authenticates fragment message) := by
  intro s done
  constructor
  · rcases Nat.le_one_iff_eq_zero_or_eq_one.mp (length_commands_step_le m.host s m.request) with
      hnone | hone
    · exact .inl (List.length_eq_zero_iff.mp hnone)
    · obtain ⟨output, houtput⟩ := List.length_eq_one_iff.mp hone
      have hmem : output ∈ commands (s.step m.host m.request).outputs :=
        houtput ▸ List.mem_singleton_self _
      obtain ⟨id, item, tag, trigger, rfl⟩ := exists_of_mem_commands hmem
      exact .inr ⟨id, item, tag, trigger, houtput⟩
  · intro id item tag trigger
    rw [commands_step_eq_singleton_iff, command_mem_step_iff]
    constructor
    · rintro ⟨fragment, session, message, hrequest, hsession, hrunning, hhandler, hread, hcomplete⟩
      obtain ⟨hmem, hid⟩ := mem_of_session? hsession
      obtain ⟨hkey, hhappens⟩ := running_run hmem hrunning
      rw [hid] at hhappens
      exact ⟨fragment, session, message, hrequest, hhandler, hsession, hrunning, hkey, hhappens,
        hread, hcomplete⟩
    · rintro ⟨fragment, session, message, hrequest, hhandler, hsession, hrunning, -, -, hread,
        hcomplete⟩
      exact ⟨fragment, session, message, hrequest, hsession, hrunning, hhandler, hread, hcomplete⟩

/-- A central that takes every fragment, and somebody who carries commands out. -/
def openHost : ServerHost where
  takes := fun _ _ _ => true
  handler := some fun _ _ _ _ => .success

/-- A registered server, and a central that subscribes and logs in. -/
def loggedIn : List Moment :=
  [⟨openHost, .begin .sesame5 Uuid.nil⟩, ⟨openHost, .setRegistered (Octets.zero 16)⟩,
    ⟨openHost, .subscribed 1 0⟩, ⟨openHost, .receive 1 [3, 2, 57, 221, 140, 99]⟩]

/-- Not every command that is carried out has been authenticated: a session that runs may give one
in plain. -/
theorem not_forall_command_authenticated :
    ¬ ∀ (random : RandomSource) (maxSessions : Nat) (ms : List Moment) (m : Moment)
      (id : SessionId) (item : ItemCode) (tag : String) (trigger : Option TriggerType),
      .command id item tag trigger ∈
        (((Server.new random maxSessions).run ms).1.step m.host m.request).outputs →
      ∃ fragment session message, m.request = .receive id fragment ∧
        ((Server.new random maxSessions).run ms).1.session? id = some session ∧
        session.channel.Authenticates fragment message := by
  intro h
  have hcommand : .command 1 .lock "" none ∈
      (((Server.new (RandomSource.ofSeed 3) 2).run loggedIn).1.step openHost
        (.receive 1 [3, 82, 0])).outputs := by decide +kernel
  obtain ⟨fragment, session, message, hrequest, -, hauthentic⟩ :=
    h (RandomSource.ofSeed 3) 2 loggedIn ⟨openHost, .receive 1 [3, 82, 0]⟩ 1 .lock "" none hcommand
  cases hrequest
  exact absurd hauthentic.isEncrypted (by decide)

end SmartLock.Server
