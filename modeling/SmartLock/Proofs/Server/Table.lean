/-
# Looking sessions up

What happens to the session that is found under a number.  A step changes it by a fragment of its
own central, by a check of its time, by a message to its central, or not at all (`Treated`); and it
stays under its number until its central disconnects (`session?_step`).  Where there was none, there
is one only after a subscription (`session?_step_of_eq_none`).
-/
import SmartLock.Proofs.Server.Sessions

namespace SmartLock.Server

/-! ## Slots -/

section Slots

variable (station : Station) (rest : List (Option Session)) (id : SessionId)

/-- A free slot is passed over. -/
@[simp] theorem session?_none_cons :
    Server.session? ⟨station, none :: rest⟩ id = Server.session? ⟨station, rest⟩ id := rfl

/-- A session is found if it has the number. -/
theorem session?_some_cons (first : Session) :
    Server.session? ⟨station, some first :: rest⟩ id =
      if first.id = id then some first else Server.session? ⟨station, rest⟩ id := by
  by_cases h : first.id = id <;> simp [session?, sessions, h]

end Slots

/-- A session in a free slot is found under its number, if it is the only one with it. -/
theorem session?_placeIn {s : Server} {new : Session} (station : Station)
    (hfree : s.slots.all Option.isSome = false) (hunused : s.hasSession new.id = false) :
    Server.session? ⟨station, placeIn s.slots new⟩ new.id = some new := by
  obtain ⟨current, slots⟩ := s
  rw [hasSession, Option.isSome_eq_false_iff, Option.isNone_iff_eq_none] at hunused
  induction slots with
  | nil => simp at hfree
  | cons slot rest ih =>
      cases slot with
      | none => simp [placeIn, session?_some_cons]
      | some first =>
          rw [session?_some_cons] at hunused
          split at hunused
          · cases hunused
          · rename_i hfirst
            rw [placeIn, session?_some_cons, if_neg hfirst]
            exact ih (by simpa using hfree) hunused

/-- Under other numbers nothing changes. -/
theorem session?_placeIn_of_ne {id : SessionId} {new : Session} (station : Station)
    (slots : List (Option Session)) (h : new.id ≠ id) :
    Server.session? ⟨station, placeIn slots new⟩ id = Server.session? ⟨station, slots⟩ id := by
  induction slots with
  | nil => rfl
  | cons slot rest ih =>
      cases slot with
      | none => rw [placeIn, session?_some_cons, if_neg h, session?_none_cons]
      | some first => rw [placeIn, session?_some_cons, session?_some_cons, ih]

/-- A session that takes the place of the one with its number is found under it. -/
theorem session?_replaceIn {s : Server} {old new : Session} (station : Station)
    (hold : s.session? new.id = some old) :
    Server.session? ⟨station, replaceIn s.slots new⟩ new.id = some new := by
  obtain ⟨current, slots⟩ := s
  induction slots with
  | nil => cases hold
  | cons slot rest ih =>
      cases slot with
      | none => exact ih hold
      | some first =>
          rw [session?_some_cons] at hold
          change Server.session?
            ⟨station, some (if first.id = new.id then new else first) :: replaceIn rest new⟩
            new.id = some new
          rw [session?_some_cons]
          by_cases hfirst : first.id = new.id
          · rw [if_pos hfirst, if_pos rfl]
          · rw [if_neg hfirst] at hold
            rw [if_neg hfirst, if_neg hfirst]
            exact ih hold

/-- Under other numbers nothing changes. -/
theorem session?_replaceIn_of_ne {id : SessionId} {new : Session} (station : Station)
    (slots : List (Option Session)) (h : new.id ≠ id) :
    Server.session? ⟨station, replaceIn slots new⟩ id = Server.session? ⟨station, slots⟩ id := by
  induction slots with
  | nil => rfl
  | cons slot rest ih =>
      cases slot with
      | none => exact ih
      | some first =>
          change Server.session?
            ⟨station, some (if first.id = new.id then new else first) :: replaceIn rest new⟩ id = _
          rw [session?_some_cons, session?_some_cons, ih]
          by_cases hfirst : first.id = new.id
          · rw [if_pos hfirst, if_neg h, if_neg (hfirst ▸ h)]
          · rw [if_neg hfirst]

/-- Once its slot is cleared, a session is not found any more. -/
theorem session?_clearIn_self (station : Station) (slots : List (Option Session))
    (id : SessionId) : Server.session? ⟨station, clearIn slots id⟩ id = none := by
  -- A session with the number would have passed the filter of its slot.
  rw [Option.eq_none_iff_forall_ne_some]
  intro session hsession
  obtain ⟨hmem, hid⟩ := mem_of_session? hsession
  obtain ⟨slot, -, hfilter⟩ := List.mem_map.mp (mem_sessions.mp hmem)
  obtain ⟨-, hne⟩ := Option.filter_eq_some_iff.mp hfilter
  simp [hid] at hne

/-- When a slot is cleared, nothing changes under other numbers. -/
theorem session?_clearIn_of_ne {id other : SessionId} (station : Station)
    (slots : List (Option Session)) (h : other ≠ id) :
    Server.session? ⟨station, clearIn slots other⟩ id = Server.session? ⟨station, slots⟩ id := by
  induction slots with
  | nil => rfl
  | cons slot rest ih =>
      cases slot with
      | none => exact ih
      | some first =>
          change Server.session?
            ⟨station, Option.filter (·.id ≠ other) (some first) :: clearIn rest other⟩ id = _
          rw [session?_some_cons]
          by_cases hfirst : first.id = other
          · rw [Option.filter_some_neg (by simp [hfirst]), session?_none_cons,
              if_neg (hfirst ▸ h), ih]
          · rw [Option.filter_some_pos (by simp [hfirst]), session?_some_cons, ih]

/-- A change of every session changes the one that is found. -/
theorem session?_map {f : Session → Session} (hid : ∀ session, (f session).id = session.id)
    (station : Station) (slots : List (Option Session)) (id : SessionId) :
    Server.session? ⟨station, slots.map (Option.map f)⟩ id =
      (Server.session? ⟨station, slots⟩ id).map f := by
  induction slots with
  | nil => rfl
  | cons slot rest ih =>
      cases slot with
      | none => exact ih
      | some first =>
          rw [List.map_cons, Option.map_some, session?_some_cons, session?_some_cons, hid, ih]
          split <;> rfl

/-- A notification of all sessions leaves each of them under its number: alike if it runs, and as
it is if it does not. -/
theorem session?_notifySlots (host : ServerHost) (station : Station) (n : Notice)
    (outputs : List ServerOutput) (slots : List (Option Session)) (id : SessionId) :
    Option.Rel (fun new old => old.state = .running ∧ new.Like old ∨ new = old)
      (Server.session? ⟨station, (notifySlots host station n outputs slots).1⟩ id)
      (Server.session? ⟨station, slots⟩ id) := by
  induction slots generalizing outputs with
  | nil => exact .none
  | cons slot rest ih =>
      cases slot with
      | none => exact ih outputs
      | some first =>
          rw [session?_some_cons, notifySlots]
          split
          · rename_i hrunning
            dsimp only
            rw [session?_some_cons]
            change Option.Rel _ (if first.id = id then _ else _) _
            split
            · exact .some (.inl ⟨hrunning, like_notify ..⟩)
            · exact ih _
          · dsimp only
            rw [session?_some_cons]
            split
            · exact .some (.inr rfl)
            · exact ih _

/-! ## Steps -/

/-- A check of its time leaves a session its number. -/
theorem id_checkTime (timeout now : UInt32) (session : Session) :
    (checkTime timeout now session).1.id = session.id := by
  unfold checkTime
  split
  · exact Session.id_setState ..
  · rfl

/-- A fragment leaves a session its number. -/
theorem id_onFragment (host : ServerHost) (station : Station) (session : Session)
    (fragment : Bytes) : (onFragment host station session fragment).session.id = session.id := by
  cases onFragment_effect host station session fragment with
  | keep hstation hlike => exact hlike.id
  | drop hstation hlike => exact hlike.id.trans (Session.id_setState ..)
  | login payload authenticated hreceived hcode hstation hlike =>
      exact hlike.id.trans (Session.id_setState ..)
  | register payload authenticated hreceived secret hnew hstation hlike =>
      exact hlike.id.trans (Session.id_setState ..)
  | strand payload authenticated hreceived secret hnew hstation hlike => exact hlike.id

/-- A greeting leaves a session its number. -/
theorem id_greet (host : ServerHost) (station : Station) (session : Session) :
    (greet host station session).session.id = session.id := by
  rcases greet_cases host station session with ⟨hlike, -⟩ | ⟨hlike, -⟩
  · exact hlike.id
  · refine hlike.id.trans ((Session.id_setState ..).trans ?_)
    split <;> rfl

/-- A session that receives a fragment stays under its number. -/
theorem session?_receive {s : Server} {id : SessionId} {old : Session}
    (hold : s.session? id = some old) (host : ServerHost) (fragment : Bytes) :
    (s.step host (.receive id fragment)).server.session? id =
      some (onFragment host s.station old fragment).session := by
  have hid := (id_onFragment host s.station old fragment).trans (mem_of_session? hold).2
  rw [receive_of_session? hold]
  have hfound := session?_replaceIn (onFragment host s.station old fragment).station
    (hid.symm ▸ hold)
  rwa [hid] at hfound

/-- A fragment changes nothing under other numbers. -/
theorem session?_receive_of_ne {s : Server} {id other : SessionId} (h : other ≠ id)
    (host : ServerHost) (fragment : Bytes) :
    (s.step host (.receive other fragment)).server.session? id = s.session? id := by
  cases hold : s.session? other with
  | none => rw [step, receive, hold]
  | some old =>
      rw [receive_of_session? hold]
      apply session?_replaceIn_of_ne
      rw [id_onFragment, (mem_of_session? hold).2]
      exact h

/-- A check of all times leaves every session under its number. -/
theorem session?_update (s : Server) (host : ServerHost) (now : UInt32) (id : SessionId) :
    (s.step host (.update now)).server.session? id =
      (s.session? id).map fun old => (checkTime s.station.loginTimeout now old).1 :=
  session?_map (id_checkTime s.station.loginTimeout now) _ s.slots id

/-- What a step does to a session that stays. -/
inductive Treated (s : Server) (m : Moment) (old new : Session) : Prop
  /-- It takes a fragment of its central. -/
  | received (fragment : Bytes) (hrequest : m.request = .receive old.id fragment)
      (hnew : new = (onFragment m.host s.station old fragment).session)
  /-- Its time is checked. -/
  | checked (now : UInt32) (hrequest : m.request = .update now)
      (hnew : new = (checkTime s.station.loginTimeout now old).1)
  /-- It is told something, of its own or because it runs. -/
  | told (target : Option SessionId) (notice : Notice)
      (hrequest : m.request = .notify target notice)
      (htarget : target = some old.id ∨ target = none ∧ old.state = .running) (hlike : new.Like old)
  /-- It is left alone. -/
  | left (hreceive : ∀ fragment, m.request ≠ .receive old.id fragment)
      (hupdate : ∀ now, m.request ≠ .update now) (hnew : new = old)

/-- A session stays under its number until its central disconnects. -/
theorem session?_step {s : Server} {m : Moment} {id : SessionId} {old : Session}
    (hold : s.session? id = some old) (hstays : m.request ≠ .disconnected id) :
    ∃ new, (s.step m.host m.request).server.session? id = some new ∧ s.Treated m old new := by
  obtain ⟨host, request⟩ := m
  obtain ⟨-, hid⟩ := mem_of_session? hold
  dsimp only at hstays ⊢
  cases request with
  | begin model uuid => exact ⟨old, hold, .left (by simp) (by simp) rfl⟩
  | generateKeys => exact ⟨old, hold, .left (by simp) (by simp) rfl⟩
  | loadKey key =>
      refine ⟨old, ?_, .left (by simp) (by simp) rfl⟩
      rw [session?, sessions, slots_loadKey]
      exact hold
  | setRegistered secret => exact ⟨old, hold, .left (by simp) (by simp) rfl⟩
  | setMechStatus status => exact ⟨old, hold, .left (by simp) (by simp) rfl⟩
  | setMechSetting setting => exact ⟨old, hold, .left (by simp) (by simp) rfl⟩
  | setLoginTimeout milliseconds => exact ⟨old, hold, .left (by simp) (by simp) rfl⟩
  | setCurrentTime seconds now => exact ⟨old, hold, .left (by simp) (by simp) rfl⟩
  | subscribed other now =>
      refine ⟨old, ?_, .left (by simp) (by simp) rfl⟩
      rcases subscribed_cases host s other now with ⟨error, -, hstep⟩ | ⟨-, hunused, -, hstep⟩
      · rw [hstep]
        exact hold
      · -- The number was in use, so that the new session has another one.
        have hne : other ≠ id := by
          rintro rfl
          rw [hasSession, hold] at hunused
          cases hunused
        rw [hstep, session?_placeIn_of_ne]
        · exact hold
        · rwa [opened, id_greet]
  | disconnected other =>
      refine ⟨old, ?_, .left (by simp) (by simp) rfl⟩
      have hne : other ≠ id := fun heq => hstays (by rw [heq])
      exact (session?_clearIn_of_ne s.station s.slots hne).trans hold
  | receive other fragment =>
      by_cases hother : other = id
      · subst hother
        exact ⟨_, session?_receive hold host fragment, .received fragment (by rw [hid]) rfl⟩
      · exact ⟨old, (session?_receive_of_ne hother host fragment).trans hold,
          .left (by simp [hid, hother]) (by simp) rfl⟩
  | update now =>
      refine ⟨_, ?_, .checked now rfl rfl⟩
      rw [session?_update, hold]
      rfl
  | notify other notice =>
      cases other with
      | none =>
          have hrel := session?_notifySlots host s.station notice [] s.slots id
          have hslots : Server.session? ⟨s.station, s.slots⟩ id = some old := hold
          rw [hslots] at hrel
          cases hnew : Server.session?
              ⟨s.station, (notifySlots host s.station notice [] s.slots).1⟩ id with
          | none =>
              rw [hnew] at hrel
              cases hrel
          | some new =>
              rw [hnew] at hrel
              cases hrel with
              | some h =>
                  rcases h with ⟨hrunning, hlike⟩ | hsame
                  · exact ⟨new, hnew, .told none notice rfl (.inr ⟨rfl, hrunning⟩) hlike⟩
                  · exact ⟨new, hnew, .left (by simp) (by simp) hsame⟩
      | some other =>
          simp only [step, notifyOne]
          cases hfound : s.session? other with
          | none => exact ⟨old, hold, .left (by simp) (by simp) rfl⟩
          | some session =>
              obtain ⟨-, hsession⟩ := mem_of_session? hfound
              by_cases hother : other = id
              · subst hother
                rw [hold] at hfound
                cases hfound
                refine ⟨_, ?_, .told (some other) notice rfl (.inl (by rw [hid])) (like_notify host
                  { station := s.station, session := old } notice.op notice.item notice.body true)⟩
                subst hid
                have hfound : s.session? (Turn.notify host { station := s.station, session := old }
                    notice.op notice.item notice.body true).session.id = some old := hold
                exact session?_replaceIn s.station hfound
              · refine ⟨old, ?_, .left (by simp) (by simp) rfl⟩
                exact (session?_replaceIn_of_ne _ _ (hsession ▸ hother)).trans hold

/-- A session that is there after a step has not been disconnected in it. -/
theorem ne_disconnected_of_session? {s : Server} {m : Moment} {id : SessionId} {new : Session}
    (hnew : (s.step m.host m.request).server.session? id = some new) :
    m.request ≠ .disconnected id := by
  intro hrequest
  rw [hrequest] at hnew
  cases (session?_clearIn_self ..).symm.trans hnew

/-- A number under which there is no session comes into use by a subscription only. -/
theorem session?_step_of_eq_none {s : Server} {m : Moment} {id : SessionId} {new : Session}
    (hnone : s.session? id = none)
    (hnew : (s.step m.host m.request).server.session? id = some new) :
    ∃ now, m.request = .subscribed id now ∧ new = (opened m.host s.station id now).session ∧
      (s.step m.host m.request).result = (opened m.host s.station id now).result := by
  obtain ⟨host, request⟩ := m
  dsimp only at hnew ⊢
  have hkept (h : s.session? id = some new) : False := by
    rw [hnone] at h
    cases h
  cases request with
  | begin model uuid => exact (hkept hnew).elim
  | generateKeys => exact (hkept hnew).elim
  | loadKey key =>
      rw [session?, sessions, slots_loadKey] at hnew
      exact (hkept hnew).elim
  | setRegistered secret => exact (hkept hnew).elim
  | setMechStatus status => exact (hkept hnew).elim
  | setMechSetting setting => exact (hkept hnew).elim
  | setLoginTimeout milliseconds => exact (hkept hnew).elim
  | setCurrentTime seconds now => exact (hkept hnew).elim
  | subscribed other now =>
      rcases subscribed_cases host s other now with ⟨error, -, hstep⟩ | ⟨-, hunused, hfree, hstep⟩
      · rw [hstep] at hnew
        exact (hkept hnew).elim
      · rw [hstep] at hnew ⊢
        have hid : (opened host s.station other now).session.id = other := id_greet ..
        by_cases hother : other = id
        · subst hother
          have hfound := session?_placeIn (opened host s.station other now).station hfree
            (hid.symm ▸ hunused)
          rw [hid] at hfound
          exact ⟨now, rfl, Option.some.inj (hnew.symm.trans hfound), rfl⟩
        · rw [session?_placeIn_of_ne _ _ (hid.symm ▸ hother)] at hnew
          exact (hkept hnew).elim
  | disconnected other =>
      by_cases hother : other = id
      · rw [hother] at hnew
        cases (session?_clearIn_self ..).symm.trans hnew
      · exact (hkept ((session?_clearIn_of_ne s.station s.slots hother).symm.trans hnew)).elim
  | receive other fragment =>
      by_cases hother : other = id
      · rw [hother, step, receive, hnone] at hnew
        exact (hkept hnew).elim
      · exact (hkept ((session?_receive_of_ne hother host fragment).symm.trans hnew)).elim
  | update now =>
      rw [session?_update, hnone] at hnew
      cases hnew
  | notify other notice =>
      cases other with
      | none =>
          have hrel := session?_notifySlots host s.station notice [] s.slots id
          have hslots : Server.session? ⟨s.station, s.slots⟩ id = none := hnone
          rw [hslots] at hrel
          change Server.session?
            ⟨s.station, (notifySlots host s.station notice [] s.slots).1⟩ id = some new at hnew
          rw [hnew] at hrel
          cases hrel
      | some other =>
          simp only [step, notifyOne] at hnew
          cases hfound : s.session? other with
          | none =>
              rw [hfound] at hnew
              exact (hkept hnew).elim
          | some session =>
              rw [hfound] at hnew
              have hother : other ≠ id := by
                rintro rfl
                rw [hnone] at hfound
                cases hfound
              have hne : (Turn.notify host { station := s.station, session := session } notice.op
                  notice.item notice.body true).session.id ≠ id := by
                rwa [(like_notify ..).id, (mem_of_session? hfound).2]
              exact (hkept ((session?_replaceIn_of_ne _ _ hne).symm.trans hnew)).elim

end SmartLock.Server
