/-
# Notifications for all sessions

A notification for everybody is one encrypted message to each session that runs, whatever becomes of
the others: in the order of the slots, each link is offered the fragments of its own packet up to
the first that it refuses (`attempt`).  A session that runs moves its nonce for sending one step,
and nothing else changes (`Session.afterBroadcast`).  The result tells how many of these sessions
have not got the message in full (`writtenInFull`).  `broadcast_run` says so for every run of a new
server.
-/
import Mathlib.Data.List.Nodup
import SmartLock.Proofs.Link.FailedSends
import SmartLock.Proofs.Link.Numbering
import SmartLock.Proofs.Server.Commands
import SmartLock.Proofs.Server.Equipment
import SmartLock.Proofs.Server.Numbers

namespace SmartLock

/-- The session after one step of its nonce for sending. -/
def Session.advanceSend (session : Session) : Session :=
  { session with channel := { session.channel with cipher := session.channel.cipher.advanceSend } }

/-- The session after a notification of all: if it runs, its nonce for sending has moved a step. -/
def Session.afterBroadcast (session : Session) : Session :=
  if session.state = .running then session.advanceSend else session

/-- No session changes its number or its state. -/
theorem Session.id_state_afterBroadcast (session : Session) :
    session.afterBroadcast.id = session.id ∧ session.afterBroadcast.state = session.state := by
  unfold afterBroadcast
  split <;> exact ⟨rfl, rfl⟩

/-- So no table of sessions changes theirs. -/
theorem Session.map_id_state_afterBroadcast (slots : List (Option Session)) :
    (slots.map (Option.map afterBroadcast)).map
        (Option.map fun session => (session.id, session.state)) =
      slots.map (Option.map fun session => (session.id, session.state)) := by
  have hcomp : (fun session : Session => (session.id, session.state)) ∘ afterBroadcast =
      fun session => (session.id, session.state) := by
    funext session
    obtain ⟨hid, hstate⟩ := session.id_state_afterBroadcast
    rw [Function.comp, hid, hstate]
  rw [List.map_map, Option.map_comp_map, hcomp]

/-- A session of a device that runs counts one step for the way to its central. -/
theorem Session.count_afterBroadcast {session : Session} (hdevice : session.channel.IsDevice)
    (hrunning : session.state = .running) :
    (session.afterBroadcast.channel.cipher.nonces.get .toCentral).count =
      (session.channel.cipher.nonces.get .toCentral).count + 1 := by
  have hrole : session.channel.cipher.role.outward = .toCentral := by rw [hdevice.role]; rfl
  have hsending := Cipher.sending_advanceSend session.channel.cipher
  rw [Cipher.sending, Cipher.role_advanceSend, Cipher.sending, hrole, hdevice.rule] at hsending
  rw [afterBroadcast, if_pos hrunning, advanceSend, hsending]
  rfl

namespace Server

/-! ## One session -/

/-- The packet of a notice for a session: what its cipher makes of it, if it has a key and the
notice is not too long. -/
def Notice.packet? (n : Notice) (session : Session) : Option Bytes :=
  session.channel.cipher.key.bind fun key =>
    Ccm.encrypt? key session.channel.cipher.sendNonce Cipher.associated
      (n.op.code :: n.item.code :: n.body)

/-- What an attempt to send a notice to a session puts out after some outputs: the fragments of its
packet, up to the first that the link refuses. -/
def attempt (host : ServerHost) (n : Notice) (earlier : List ServerOutput) (session : Session) :
    List ServerOutput :=
  let writer : Fragment.Writer := fun taken fragment =>
    host.takes (earlier ++ taken.reverse.map (.write session.id · true)) session.id fragment
  match n.packet? session with
  | none => []
  | some packet => Turn.writes session.id (Fragment.offer writer (Fragment.split true packet))

/-- Whether, among all outputs, those about a session are its packet of a notice in full. -/
def writtenInFull (n : Notice) (outputs : List ServerOutput) (session : Session) : Bool :=
  match n.packet? session with
  | none => false
  | some packet =>
      ownOutputs session.id outputs = (Fragment.split true packet).map (.write session.id · true)

/-- It is written in full when its packet is what has been put out about it. -/
theorem writtenInFull_iff {n : Notice} {outputs : List ServerOutput} {session : Session} :
    writtenInFull n outputs session = true ↔ ∃ packet, n.packet? session = some packet ∧
      ownOutputs session.id outputs =
        (Fragment.split true packet).map (.write session.id · true) := by
  unfold writtenInFull
  cases n.packet? session <;> simp

/-- An attempt is about its session. -/
theorem session_of_mem_attempt {host : ServerHost} {n : Notice} {earlier : List ServerOutput}
    {session : Session} {output : ServerOutput} (h : output ∈ attempt host n earlier session) :
    output.session = session.id := by
  unfold attempt at h
  dsimp only at h
  split at h
  · cases h
  · obtain ⟨fragment, taken, rfl⟩ := mem_writes h
    rfl

/-- With a key, sending a notice to a session moves its nonce and puts out the attempt; it succeeds
exactly if all fragments of the packet have been taken. -/
theorem notify_of_key (host : ServerHost) (n : Notice) {t : Turn} {key : Key}
    (hkey : t.session.channel.cipher.key = some key) :
    let told := t.notify host n.op n.item n.body true
    told.session = t.session.advanceSend ∧
      told.outputs = t.outputs ++ attempt host n t.outputs t.session ∧
      (told.result = .ok () ↔ ∃ packet, n.packet? t.session = some packet ∧
        attempt host n t.outputs t.session =
          (Fragment.split true packet).map (.write t.session.id · true)) := by
  intro told
  have hpacket : n.packet? t.session = Ccm.encrypt? key t.session.channel.cipher.sendNonce
      Cipher.associated (n.op.code :: n.item.code :: n.body) := by
    rw [Notice.packet?, hkey, Option.bind_some]
  cases hencrypt : Ccm.encrypt? key t.session.channel.cipher.sendNonce Cipher.associated
      (n.op.code :: n.item.code :: n.body) with
  | none =>
      rw [hencrypt] at hpacket
      simp [told, Turn.notify, Channel.send, Cipher.encrypt, hkey, hencrypt, attempt, hpacket,
        Turn.writes, Except.mapError, Session.advanceSend]
  | some packet =>
      rw [hencrypt] at hpacket
      have hsend (writer : Fragment.Writer) :
          t.session.channel.send writer (n.op.code :: n.item.code :: n.body) true =
            Channel.sendPacket
              { t.session.channel with cipher := t.session.channel.cipher.advanceSend } writer
              packet true := by
        simp [Channel.send, Cipher.encrypt, hkey, hencrypt]
      simp only [told, Turn.notify, hsend, attempt, hpacket, Channel.sendPacket,
        Session.advanceSend]
      refine ⟨trivial, trivial, ?_⟩
      rcases Fragment.offerAfter_cases _ [] (Fragment.split true packet) with
        hoffer | ⟨taken, refused, rest, -, hoffer⟩
      · rw [Fragment.offer, hoffer]
        exact iff_of_true rfl ⟨packet, rfl, by simp [Turn.writes]⟩
      · -- The refused fragment is put out as such, and so is none of a message in full.
        rw [Fragment.offer, hoffer]
        refine iff_of_false (fun hok => by cases hok) ?_
        rintro ⟨other, -, heq⟩
        have hmem : .write t.session.id refused false ∈
            (Fragment.split true other).map (ServerOutput.write t.session.id · true) := by
          rw [← heq]
          simp [Turn.writes]
        simp at hmem

/-! ## All sessions -/

section Slots

variable (host : ServerHost) {station : Station} (n : Notice) (outputs : List ServerOutput)
  {slots : List (Option Session)}
  (hkeys : ∀ session, some session ∈ slots → session.state = .running →
    session.channel.cipher.hasKey = true)

/-- What is about none of the sessions after the first slot. -/
theorem session_ne_of_cons {first : Session} {rest : List (Option Session)}
    (hnodup : (ids ⟨station, some first :: rest⟩).Nodup) {session : Session}
    (hsession : some session ∈ rest) : session.id ≠ first.id := by
  rw [ids_some_cons, List.nodup_cons] at hnodup
  rintro heq
  exact hnodup.1 (heq ▸ List.mem_map_of_mem (mem_sessions (s := ⟨station, rest⟩).mpr hsession))

/-- When it is the turn of a session that runs, there is an attempt to it; later writes are to other
sessions. -/
theorem outputs_notifySlots_cons {first : Session} {rest : List (Option Session)}
    (hnodup : (ids ⟨station, some first :: rest⟩).Nodup) (hrunning : first.state = .running)
    (hkey : first.channel.cipher.hasKey = true) :
    ∃ more, (notifySlots host station n outputs (some first :: rest)).2.1 =
        outputs ++ attempt host n outputs first ++ more ∧
      ∀ output ∈ more, output.session ≠ first.id := by
  obtain ⟨key, hkey⟩ := Option.isSome_iff_exists.mp hkey
  obtain ⟨-, hwritten, -⟩ := notify_of_key host n
    (t := { station := station, session := first, outputs := outputs }) hkey
  obtain ⟨more, hmore, hwrites⟩ := outputs_notifySlots host station n
    (outputs ++ attempt host n outputs first) rest
  refine ⟨more, ?_, fun output houtput => ?_⟩
  · simp only [notifySlots, if_pos hrunning, hwritten]
    exact hmore
  · obtain ⟨other, hother, -, fragment, taken, rfl⟩ := hwrites output houtput
    exact session_ne_of_cons hnodup hother

/-- In the end, what has been put out about the first session is the attempt to it. -/
theorem ownOutputs_notifySlots_cons {first : Session} {rest : List (Option Session)}
    (hnodup : (ids ⟨station, some first :: rest⟩).Nodup) (hrunning : first.state = .running)
    (hkey : first.channel.cipher.hasKey = true)
    (houtputs : ∀ output ∈ outputs, output.session ≠ first.id) :
    ownOutputs first.id (notifySlots host station n outputs (some first :: rest)).2.1 =
      attempt host n outputs first := by
  obtain ⟨more, hmore, hothers⟩ :=
    outputs_notifySlots_cons host n outputs hnodup hrunning hkey
  rw [hmore, ownOutputs_append, ownOutputs_append, ownOutputs_of_forall_ne houtputs,
    ownOutputs_of_forall_eq fun output => session_of_mem_attempt,
    ownOutputs_of_forall_ne hothers, List.nil_append, List.append_nil]

include hkeys

/-- The sessions that run move their nonces, and the others stay as they are. -/
theorem slots_notifySlots : (notifySlots host station n outputs slots).1 =
    slots.map (Option.map Session.afterBroadcast) := by
  induction slots generalizing outputs with
  | nil => rfl
  | cons slot rest ih =>
      have hrest := fun other hother => hkeys other (List.mem_cons_of_mem _ hother)
      cases slot with
      | none => simp only [notifySlots, ih _ hrest, List.map_cons, Option.map_none]
      | some first =>
          simp only [notifySlots, List.map_cons, Option.map_some, Session.afterBroadcast]
          split
          · rename_i hrunning
            obtain ⟨key, hkey⟩ := Option.isSome_iff_exists.mp
              (hkeys first List.mem_cons_self hrunning)
            obtain ⟨hsession, -, -⟩ := notify_of_key host n
              (t := { station := station, session := first, outputs := outputs }) hkey
            rw [hsession, ih _ hrest]
          · rw [ih _ hrest]

/-- To each session that runs there is one attempt, and nothing else is put out about it. -/
theorem outputs_notifySlots_of_mem (hnodup : (ids ⟨station, slots⟩).Nodup) {session : Session}
    (hsession : some session ∈ slots) (hrunning : session.state = .running)
    (houtputs : ∀ output ∈ outputs, output.session ≠ session.id) :
    ∃ earlier later, (notifySlots host station n outputs slots).2.1 =
        earlier ++ attempt host n earlier session ++ later ∧
      ∀ output ∈ earlier ++ later, output.session ≠ session.id := by
  induction slots generalizing outputs with
  | nil => cases hsession
  | cons slot rest ih =>
      have hrest := fun other hother => hkeys other (List.mem_cons_of_mem _ hother)
      cases slot with
      | none => exact ih _ hrest hnodup (by simpa using hsession) houtputs
      | some first =>
          rcases List.mem_cons.mp hsession with heq | hmem
          · obtain rfl := Option.some.inj heq
            obtain ⟨more, hmore, hothers⟩ := outputs_notifySlots_cons host n outputs hnodup hrunning
              (hkeys session hsession hrunning)
            exact ⟨outputs, more, hmore, List.forall_mem_append.mpr ⟨houtputs, hothers⟩⟩
          · have hlater : (ids ⟨station, rest⟩).Nodup := (List.nodup_cons.mp hnodup).2
            simp only [notifySlots]
            split
            · refine ih _ hrest hlater hmem fun output houtput => ?_
              rcases mem_outputs_notify houtput with houtput | ⟨fragment, taken, rfl⟩
              · exact houtputs output houtput
              · exact (session_ne_of_cons hnodup hmem).symm
            · exact ih _ hrest hlater hmem houtputs

/-- It fails for those sessions that run and have not been written to in full. -/
theorem failed_notifySlots (hnodup : (ids ⟨station, slots⟩).Nodup)
    (houtputs : ∀ output ∈ outputs, ∀ session, some session ∈ slots →
      output.session ≠ session.id) :
    (notifySlots host station n outputs slots).2.2 =
      ((sessions ⟨station, slots⟩).filter (·.state = .running)).countP
        (!writtenInFull n (notifySlots host station n outputs slots).2.1 ·) := by
  induction slots generalizing outputs with
  | nil => rfl
  | cons slot rest ih =>
      have hrest := fun other hother => hkeys other (List.mem_cons_of_mem _ hother)
      have hothers := fun output houtput other hother =>
        houtputs output houtput other (List.mem_cons_of_mem _ hother)
      cases slot with
      | none => exact ih _ hrest hnodup hothers
      | some first =>
          have hlater : (ids ⟨station, rest⟩).Nodup := (List.nodup_cons.mp hnodup).2
          have hcons : sessions ⟨station, some first :: rest⟩ =
              first :: sessions ⟨station, rest⟩ := rfl
          by_cases hrunning : first.state = .running
          · have hkeyed := hkeys first List.mem_cons_self hrunning
            obtain ⟨key, hkey⟩ := Option.isSome_iff_exists.mp hkeyed
            obtain ⟨-, hwritten, hresult⟩ := notify_of_key host n
              (t := { station := station, session := first, outputs := outputs }) hkey
            have hown := ownOutputs_notifySlots_cons host n outputs hnodup hrunning hkeyed
              fun output houtput => houtputs output houtput first List.mem_cons_self
            rw [← hown, ← writtenInFull_iff] at hresult
            have hafter : ∀ output ∈ outputs ++ attempt host n outputs first, ∀ other,
                some other ∈ rest → output.session ≠ other.id := by
              intro output houtput other hother
              rcases List.mem_append.mp houtput with houtput | houtput
              · exact hothers output houtput other hother
              · exact session_of_mem_attempt houtput ▸ (session_ne_of_cons hnodup hother).symm
            rw [hcons, List.filter_cons_of_pos (by simpa using hrunning), List.countP_cons]
            simp only [notifySlots, if_pos hrunning, hwritten] at hresult ⊢
            rw [← ih _ hrest hlater hafter]
            split
            · rename_i hok
              simp [hresult.mp hok]
            · rename_i error herror
              rw [herror] at hresult
              simp [← hresult]
          · rw [hcons, List.filter_cons_of_neg (by simpa using hrunning)]
            simp only [notifySlots, if_neg hrunning]
            exact ih _ hrest hlater hothers

end Slots

/-- All that a notification of everybody puts out are writes to sessions that run. -/
theorem mem_outputs_notifyAll {s : Server} (host : ServerHost) (n : Notice) {output : ServerOutput}
    (h : output ∈ (s.step host (.notify none n)).outputs) :
    ∃ session ∈ s.sessions, session.state = .running ∧
      ∃ fragment taken, output = .write session.id fragment taken := by
  obtain ⟨session, hslot, hwrite⟩ := mem_outputs_notifySlots h
  exact ⟨session, mem_sessions.mpr hslot, hwrite⟩

/-! ## Runs -/

/-- What a notification of all sessions does to a server. -/
structure Broadcasts (host : ServerHost) (n : Notice) (s : Server) : Prop where
  /-- The shared part stays as it is. -/
  station : (s.step host (.notify none n)).server.station = s.station
  /-- So does every session, but for the nonces of those that run. -/
  slots : (s.step host (.notify none n)).server.slots =
    s.slots.map (Option.map Session.afterBroadcast)
  /-- No session changes its slot, its number or its state. -/
  states : (s.step host (.notify none n)).server.slots.map
      (Option.map fun session => (session.id, session.state)) =
    s.slots.map (Option.map fun session => (session.id, session.state))
  /-- Each session that runs counts one step for the way to its central. -/
  counts : ∀ session ∈ s.sessions, session.state = .running →
    (session.afterBroadcast.channel.cipher.nonces.get .toCentral).count =
      (session.channel.cipher.nonces.get .toCentral).count + 1
  /-- To each session that runs, which has a key, one message is attempted. -/
  attempts : ∀ session ∈ s.sessions, session.state = .running →
    session.channel.cipher.hasKey = true ∧
    ∃ earlier later, (s.step host (.notify none n)).outputs =
        earlier ++ attempt host n earlier session ++ later ∧
      ∀ output ∈ earlier ++ later, output.session ≠ session.id
  /-- Nothing else is put out. -/
  outputs : ∀ output ∈ (s.step host (.notify none n)).outputs,
    ∃ session ∈ s.sessions, session.state = .running ∧
      ∃ fragment taken, output = .write session.id fragment taken
  /-- To the other sessions nothing is written. -/
  others : ∀ session ∈ s.sessions, session.state ≠ .running →
    ownOutputs session.id (s.step host (.notify none n)).outputs = []
  /-- The result counts the sessions that run and have not been written to in full. -/
  result : (s.step host (.notify none n)).result =
    let failed := (s.sessions.filter (·.state = .running)).countP
      (!writtenInFull n (s.step host (.notify none n)).outputs ·)
    if failed = 0 then .ok () else .error (.broadcastFailed failed)

/-- **Notifications for all sessions**, in every run of a new server, whatever the links take.  Each
session that runs gets one encrypted message, regardless of the others, and counts one step; all
other sessions, and all else, stay as they are; and the result is the number of sessions that have
not been written to in full, or success if there are none. -/
theorem broadcast_run (random : RandomSource) (maxSessions : Nat) (ms : List Moment)
    (host : ServerHost) (n : Notice) :
    ((Server.new random maxSessions).run ms).1.Broadcasts host n := by
  generalize hs : ((Server.new random maxSessions).run ms).1 = s
  have hnodup : s.ids.Nodup := hs ▸ nodup_ids_run random maxSessions ms
  have hkeys : ∀ session, some session ∈ s.slots → session.state = .running →
      session.channel.cipher.hasKey = true :=
    fun session hslot hrunning =>
      (running_run (hs.symm ▸ mem_sessions.mpr hslot) hrunning).1
  have hslots : (s.step host (.notify none n)).server.slots =
      s.slots.map (Option.map Session.afterBroadcast) := slots_notifySlots host n [] hkeys
  constructor
  · rfl
  · exact hslots
  · rw [hslots, Session.map_id_state_afterBroadcast]
  · intro session hsession
    have hequipped : s.Equipped := hs ▸ equipped_run random maxSessions ms
    exact Session.count_afterBroadcast (hequipped.device session hsession)
  · intro session hsession hrunning
    have hslot := mem_sessions.mp hsession
    exact ⟨hkeys session hslot hrunning,
      outputs_notifySlots_of_mem host n [] hkeys hnodup hslot hrunning (by simp)⟩
  · exact fun output => mem_outputs_notifyAll host n
  · intro session hsession hidle
    refine ownOutputs_of_forall_ne fun output houtput heq => ?_
    obtain ⟨other, hother, hrunning, fragment, taken, rfl⟩ := mem_outputs_notifyAll host n houtput
    -- Two sessions with one number are the same.
    obtain rfl : other = session := List.inj_on_of_nodup_map hnodup hother hsession heq
    exact hidle hrunning
  · have hfailed := failed_notifySlots host n [] hkeys hnodup (by simp)
    simp only [step, notifyAll, hfailed]
    split
    · rename_i hpos
      rw [if_neg (Nat.pos_iff_ne_zero.mp hpos)]
    · rename_i hzero
      rw [if_pos (Nat.eq_zero_of_not_pos hzero)]

/-- A session that runs is counted when its link takes nothing. -/
example : (((Server.new (RandomSource.ofSeed 3) 2).run loggedIn).1.step
    { takes := fun _ _ _ => false } (.notify none ⟨.publish, .mechStatus, []⟩)).result =
      .error (.broadcastFailed 1) := by
  decide +kernel

end Server

end SmartLock
