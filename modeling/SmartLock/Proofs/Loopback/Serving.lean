/-
# A session that is served

What a server does for a session that runs (`Server.Serves`), when its links take everything.  A
notification goes out to it as one message (`Server.Serves.notify`), a notification for another
session does not touch it (`Server.Serves.notify_of_ne`), and a command of its central is carried
out and answered at once (`Server.Serves.command`).

A notification for all sessions reaches each of them once because no two sessions have the same
number (`Server.nodup_ids_run`).
-/
import SmartLock.Proofs.Loopback.Login
import SmartLock.Proofs.Server.Commands
import SmartLock.Proofs.Server.Numbers

namespace SmartLock.Server

open Loopback (writtenTo)

/-! ## Messages -/

/-- What is written to a session in two parts. -/
theorem writtenTo_append (id : SessionId) (first second : List ServerOutput) :
    writtenTo id (first ++ second) = writtenTo id first ++ writtenTo id second :=
  List.filterMap_append

/-- What is written to another session is not written to this one. -/
theorem writtenTo_writes_of_ne {id other : SessionId} (h : other ≠ id) (offer : Fragment.Offer) :
    writtenTo id (Turn.writes other offer) = [] := by
  rw [writtenTo, List.filterMap_eq_nil_iff]
  intro output hmem
  obtain ⟨fragment, taken, rfl⟩ := mem_writes hmem
  cases taken <;> simp [h]

/-- Only what is a command is read as one. -/
theorem isCommandItem_of_readCommand? {message : Bytes} {item : ItemCode} {tag : String}
    {trigger : Option TriggerType} (h : readCommand? message = some (item, tag, trigger)) :
    isCommandItem item = true := by
  unfold readCommand? at h
  split at h
  · split at h
    · split at h
      · rename_i hwell
        obtain ⟨rfl, -⟩ := Prod.mk.inj (Option.some.inj h)
        exact (Bool.and_eq_true_iff.mp hwell).1
      · cases h
    · cases h
  · cases h

/-- A message that is a command is carried out, and answered with its result. -/
theorem onMessage_of_readCommand? {host : ServerHost} {t : Turn} {handler : CommandHandler}
    (hhandler : host.handler = some handler) (hrunning : t.session.state = .running)
    {message : Bytes} {item : ItemCode} {tag : String} {trigger : Option TriggerType}
    (hread : readCommand? message = some (item, tag, trigger)) :
    onMessage host t message =
      Turn.notify host { t with outputs := t.outputs ++ [.command t.session.id item tag trigger] }
        .response item [(handler t.session.id item tag trigger).code] true := by
  match message with
  | [] | [_] => cases hread
  | code :: size :: rest =>
      cases hcode : ItemCode.ofCode? code with
      | none => simp [readCommand?, hcode] at hread
      | some found =>
          rw [ItemCode.ofCode?_eq_some_iff.mp hcode] at hread ⊢
          simp only [readCommand?, ItemCode.ofCode?_code] at hread
          split at hread
          · rename_i hwell
            obtain ⟨hitem, hsize⟩ := Bool.and_eq_true_iff.mp hwell
            obtain ⟨rfl, htag⟩ := Prod.mk.inj (Option.some.inj hread)
            have hlength : ¬ (size :: rest).length < size.toNat + 1 := by
              have := of_decide_eq_true hsize
              rw [List.length_cons]
              omega
            have hcommand : onMessage host t (found.code :: size :: rest) =
                onCommand host t found (size :: rest) := by
              rw [onMessage_code, if_neg (by rintro rfl; cases hitem),
                if_neg (by rintro rfl; cases hitem), if_pos hitem]
            rw [hcommand, onCommand, if_neg (not_not_intro hrunning)]
            dsimp only
            rw [if_neg hlength, htag, hhandler]
          · cases hread

/-! ## Notifications for all sessions -/

section Slots

variable {host : ServerHost} {n : Notice} {id : SessionId}

/-- A notification for all sessions writes nothing to a number that is not in use. -/
theorem writtenTo_notifySlots_of_eq_none (station : Station) (outputs : List ServerOutput)
    {slots : List (Option Session)} (hnone : Server.session? ⟨station, slots⟩ id = none) :
    writtenTo id (notifySlots host station n outputs slots).2.1 = writtenTo id outputs := by
  induction slots generalizing outputs with
  | nil => rfl
  | cons slot rest ih =>
      cases slot with
      | none => exact ih outputs hnone
      | some first =>
          rw [session?_some_cons] at hnone
          split at hnone
          · cases hnone
          · rename_i hfirst
            simp only [notifySlots]
            split
            · rw [ih _ hnone, Turn.notify, writtenTo_append, writtenTo_writes_of_ne hfirst,
                List.append_nil]
            · exact ih _ hnone

/-- It goes out once to a session that runs and is the only one with its number. -/
theorem notifySlots_of_session?
    (htakes : ∀ outputs id fragment, host.takes outputs id fragment = true) (station : Station)
    (outputs : List ServerOutput) {slots : List (Option Session)} {session : Session}
    (hsession : Server.session? ⟨station, slots⟩ id = some session)
    (hrunning : session.state = .running) (hunique : (ids ⟨station, slots⟩).Nodup) {key : Key}
    (hkey : session.channel.cipher.key = some key)
    (hsendable : (⟨n.op.code :: n.item.code :: n.body, true⟩ : Message).Sendable) :
    ∃ writer, Fragment.TakesAll writer ∧
      let sent := session.channel.send writer (n.op.code :: n.item.code :: n.body) true
      Server.session? ⟨station, (notifySlots host station n outputs slots).1⟩ id =
          some { session with channel := sent.channel } ∧
        writtenTo id (notifySlots host station n outputs slots).2.1 =
          writtenTo id outputs ++ sent.offer.taken := by
  induction slots generalizing outputs with
  | nil => cases hsession
  | cons slot rest ih =>
      cases slot with
      | none => exact ih outputs hsession hunique
      | some first =>
          rw [ids_some_cons, List.nodup_cons] at hunique
          rw [session?_some_cons] at hsession
          by_cases hfirst : first.id = id
          · rw [if_pos hfirst] at hsession
            obtain rfl := Option.some.inj hsession
            subst hfirst
            obtain ⟨writer, hwriter, hnotify⟩ := notify_takesAll htakes
              (t := { station := station, session := first, outputs := outputs }) hkey hsendable
            refine ⟨writer, hwriter, ?_⟩
            simp only [notifySlots, if_pos hrunning, hnotify]
            rw [session?_some_cons, if_pos rfl, writtenTo_notifySlots_of_eq_none station _
              (session?_eq_none_iff.mpr hunique.1), writtenTo_append, Loopback.writtenTo_map]
            exact ⟨rfl, rfl⟩
          · rw [if_neg hfirst] at hsession
            by_cases hother : first.state = .running
            · obtain ⟨writer, hwriter, hfound, hwritten⟩ := ih (Turn.notify host
                { station := station, session := first, outputs := outputs } n.op n.item n.body
                true).outputs hsession hunique.2
              refine ⟨writer, hwriter, ?_, ?_⟩
              · simp only [notifySlots, if_pos hother]
                rw [session?_some_cons, if_neg (by rwa [(like_notify ..).id])]
                exact hfound
              · simp only [notifySlots, if_pos hother]
                rw [hwritten, Turn.notify, writtenTo_append, writtenTo_writes_of_ne hfirst,
                  List.append_nil]
            · obtain ⟨writer, hwriter, hfound, hwritten⟩ := ih outputs hsession hunique.2
              refine ⟨writer, hwriter, ?_, ?_⟩
              · simp only [notifySlots, if_neg hother]
                rw [session?_some_cons, if_neg hfirst]
                exact hfound
              · simp only [notifySlots, if_neg hother]
                exact hwritten

variable (host) in
/-- It fails for a session that runs if it is too long to be encrypted. -/
theorem failed_notifySlots_pos (station : Station) (outputs : List ServerOutput)
    {slots : List (Option Session)} {session : Session}
    (hsession : Server.session? ⟨station, slots⟩ id = some session)
    (hrunning : session.state = .running) {key : Key} (hkey : session.channel.cipher.key = some key)
    (hlong : Ccm.maxLength < n.body.length + 2) :
    0 < (notifySlots host station n outputs slots).2.2 := by
  induction slots generalizing outputs with
  | nil => cases hsession
  | cons slot rest ih =>
      cases slot with
      | none => exact ih outputs hsession
      | some first =>
          rw [session?_some_cons] at hsession
          by_cases hfirst : first.id = id
          · rw [if_pos hfirst] at hsession
            obtain rfl := Option.some.inj hsession
            obtain ⟨error, herror⟩ := notify_error_of_lt host
              (t := { station := station, session := first, outputs := outputs }) n.op n.item hkey
              hlong
            simp only [notifySlots, if_pos hrunning, herror]
            exact Nat.succ_pos _
          · rw [if_neg hfirst] at hsession
            simp only [notifySlots]
            split
            · have hrest := ih (Turn.notify host
                { station := station, session := first, outputs := outputs } n.op n.item n.body
                true).outputs hsession
              dsimp only
              split
              · exact hrest
              · exact Nat.succ_pos _
            · exact ih outputs hsession

end Slots

/-! ## Serving -/

/-- The session with this number runs, over this end of its link; no two sessions have the same
number. -/
structure Serves (id : SessionId) (channel : Channel) (s : Server) : Prop where
  unique : s.ids.Nodup
  session : ∃ session, s.session? id = some session ∧ session.channel = channel ∧
    session.state = .running

/-- In every run of a new server, a session that runs is served. -/
theorem serves_run (random : RandomSource) (maxSessions : Nat) (ms : List Moment) {id : SessionId}
    {session : Session} (hsession : ((Server.new random maxSessions).run ms).1.session? id =
      some session) (hrunning : session.state = .running) :
    Serves id session.channel ((Server.new random maxSessions).run ms).1 :=
  ⟨nodup_ids_run random maxSessions ms, session, hsession, rfl, hrunning⟩

/-- Over another end of its link the session is served as well. -/
theorem Serves.replace {id : SessionId} {channel : Channel} {s : Server} (h : s.Serves id channel)
    {session : Session} (hsession : s.session? id = some session)
    (hrunning : session.state = .running) (station : Station) (after : Channel) :
    Serves id after ⟨station, replaceIn s.slots { session with channel := after }⟩ := by
  obtain ⟨-, rfl⟩ := mem_of_session? hsession
  refine ⟨?_, { session with channel := after }, ?_, rfl, hrunning⟩
  · rw [ids_replaceIn s.station]
    exact h.unique
  · have hfound : s.session? { session with channel := after }.id = some session := hsession
    exact session?_replaceIn station hfound

section Serves

variable {id : SessionId} {channel : Channel} {s : Server} (h : s.Serves id channel)
  {host : ServerHost}

include h

/-- A notification for the session, or for all, goes out to it as one message. -/
theorem Serves.notify (htakes : ∀ outputs id fragment, host.takes outputs id fragment = true)
    {key : Key} (hkey : channel.cipher.key = some key) {target : Option SessionId}
    (htarget : target = none ∨ target = some id) {n : Notice}
    (hsendable : (⟨n.op.code :: n.item.code :: n.body, true⟩ : Message).Sendable) :
    ∃ writer, Fragment.TakesAll writer ∧
      let sent := channel.send writer (n.op.code :: n.item.code :: n.body) true
      Serves id sent.channel (s.step host (.notify target n)).server ∧
        writtenTo id (s.step host (.notify target n)).outputs = sent.offer.taken := by
  obtain ⟨session, hsession, rfl, hrunning⟩ := h.session
  rcases htarget with rfl | rfl
  · obtain ⟨writer, hwriter, hfound, hwritten⟩ := notifySlots_of_session? htakes s.station []
      hsession hrunning h.unique hkey hsendable
    refine ⟨writer, hwriter, ⟨?_, _, hfound, rfl, hrunning⟩, hwritten⟩
    exact nodup_ids_step h.unique host (.notify none n)
  · obtain ⟨-, rfl⟩ := mem_of_session? hsession
    obtain ⟨writer, hwriter, hnotify⟩ := notify_takesAll htakes
      (t := { station := s.station, session := session }) hkey hsendable
    refine ⟨writer, hwriter, ?_⟩
    simp only [step, notifyOne, hsession, hnotify]
    exact ⟨h.replace hsession hrunning s.station _, Loopback.writtenTo_map ..⟩

/-- A notification that is too long to be encrypted is refused with an error. -/
theorem Serves.notify_error_of_lt {key : Key} (hkey : channel.cipher.key = some key)
    {target : Option SessionId} (htarget : target = none ∨ target = some id) {n : Notice}
    (hlong : Ccm.maxLength < n.body.length + 2) :
    ∃ error, (s.step host (.notify target n)).result = .error error := by
  obtain ⟨session, hsession, rfl, hrunning⟩ := h.session
  rcases htarget with rfl | rfl
  · have hfailed := failed_notifySlots_pos host s.station [] hsession hrunning hkey hlong
    simp only [step, notifyAll, if_pos hfailed]
    exact ⟨_, rfl⟩
  · simp only [step, notifyOne, hsession]
    exact Server.notify_error_of_lt host n.op n.item hkey hlong

variable (host) in
/-- A notification for another session does not touch this one. -/
theorem Serves.notify_of_ne {other : SessionId} (hother : other ≠ id) (n : Notice) :
    Serves id channel (s.step host (.notify (some other) n)).server ∧
      writtenTo id (s.step host (.notify (some other) n)).outputs = [] := by
  simp only [step, notifyOne]
  cases hfound : s.session? other with
  | none => exact ⟨h, rfl⟩
  | some told =>
      obtain ⟨session, hsession, rfl, hrunning⟩ := h.session
      obtain ⟨-, rfl⟩ := mem_of_session? hfound
      refine ⟨⟨?_, session, ?_, rfl, hrunning⟩, writtenTo_writes_of_ne hother _⟩
      · rw [ids_replaceIn s.station]
        exact h.unique
      · have hkept := (like_notify host { station := s.station, session := told } n.op n.item n.body
          true).id
        exact (session?_replaceIn_of_ne s.station s.slots (hkept ▸ hother)).trans hsession

omit h in
/-- A notification only writes. -/
theorem write_of_mem_notify {target : Option SessionId} {n : Notice} {output : ServerOutput}
    (hmem : output ∈ (s.step host (.notify target n)).outputs) :
    ∃ id fragment taken, output = .write id fragment taken := by
  cases target with
  | none =>
      obtain ⟨session, -, -, hwrite⟩ := mem_outputs_notifySlots hmem
      exact ⟨session.id, hwrite⟩
  | some other =>
      simp only [step, notifyOne] at hmem
      cases hfound : s.session? other with
      | none =>
          rw [hfound] at hmem
          cases hmem
      | some told =>
          rw [hfound] at hmem
          exact ⟨_, (mem_outputs_notify hmem).resolve_left List.not_mem_nil⟩

variable (host) in
/-- A fragment that is of no note is taken in, and nothing is put out. -/
theorem Serves.hear {fragment : Bytes} (hquiet : (channel.receive fragment).2.IsQuiet) :
    Serves id (channel.receive fragment).1 (s.step host (.receive id fragment)).server ∧
      (s.step host (.receive id fragment)).outputs = [] := by
  obtain ⟨session, hsession, rfl, hrunning⟩ := h.session
  obtain ⟨-, rfl⟩ := mem_of_session? hsession
  rw [receive_of_session? hsession, onFragment_of_isQuiet host s.station hquiet]
  exact ⟨h.replace hsession hrunning s.station _, rfl⟩

/-- A command of the central is carried out, and answered with its result. -/
theorem Serves.command (htakes : ∀ outputs id fragment, host.takes outputs id fragment = true)
    {key : Key} (hkey : channel.cipher.key = some key) {handler : CommandHandler}
    (hhandler : host.handler = some handler) {fragment message : Bytes} {authenticated : Bool}
    (hreceived : (channel.receive fragment).2 = .complete message authenticated)
    {item : ItemCode} {tag : String} {trigger : Option TriggerType}
    (hread : readCommand? message = some (item, tag, trigger)) :
    ∃ writer, Fragment.TakesAll writer ∧
      let answer := [OpCode.response.code, item.code, (handler id item tag trigger).code]
      let sent := (channel.receive fragment).1.send writer answer true
      Serves id sent.channel (s.step host (.receive id fragment)).server ∧
        (s.step host (.receive id fragment)).outputs =
          .command id item tag trigger :: sent.offer.taken.map (.write id · true) := by
  obtain ⟨session, hsession, rfl, hrunning⟩ := h.session
  obtain ⟨-, rfl⟩ := mem_of_session? hsession
  let heard : Turn :=
    { station := s.station
      session := { session with channel := (session.channel.receive fragment).1 } }
  have hturn : onFragment host s.station session fragment = _ :=
    (onFragment_of_complete hreceived).trans
      (onMessage_of_readCommand? (t := heard) hhandler hrunning hread)
  have hkept : (session.channel.receive fragment).1.cipher.key = some key := by
    rw [Channel.key_receive, hkey]
  have hsendable : (⟨[OpCode.response.code, item.code,
      (handler session.id item tag trigger).code], true⟩ : Message).Sendable := by
    rw [Message.Sendable, if_pos rfl]
    simp [Ccm.maxLength]
  obtain ⟨writer, hwriter, hnotify⟩ := notify_takesAll htakes
    (t := { heard with outputs := [.command session.id item tag trigger] }) hkept hsendable
  refine ⟨writer, hwriter, ?_⟩
  rw [receive_of_session? hsession, hturn]
  dsimp only [heard, List.nil_append] at hnotify ⊢
  rw [hnotify]
  exact ⟨h.replace hsession hrunning s.station _, rfl⟩

end Serves

end SmartLock.Server
