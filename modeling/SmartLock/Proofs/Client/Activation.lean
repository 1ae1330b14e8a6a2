/-
# How a client becomes active

A full handshake is what a login should be: the device's first message, an accepted login after it,
and, in the third generation, the reports that the client waits for after that login, all of it
while the client is authenticating (`Client.CompletesHandshake`).

A client becomes active without looking at its own state, and what it has been told in one login or
before any stays with it through the next.  So it can become active outside a handshake:
`not_forall_active_keyed`.  When it becomes active it has completed a handshake exactly if it was
authenticating and, in the third generation, the device had accepted in the login under way; and
an active client has a session key exactly if it was authenticating when it became active
(`activation_run`).
-/
import SmartLock.Proofs.Client.Effects

namespace SmartLock.Client

/-! ## Since -/

/-- Something has happened at a moment of the run, and the client has been in this state ever
since. -/
def Since (start : Client) (state : ClientState) (ms : List Moment)
    (event : List Moment → Moment → Prop) : Prop :=
  ∃ before m, before ++ [m] <+: ms ∧ event before m ∧
    ∀ now, before ++ [m] <+: now → now <+: ms → (start.run now).1.state = state

section Since

variable {start : Client} {state : ClientState} {ms : List Moment}
  {event : List Moment → Moment → Prop}

/-- The client is in that state now. -/
theorem state_of_since (h : start.Since state ms event) : (start.run ms).1.state = state := by
  obtain ⟨before, m, hprefix, -, hkept⟩ := h
  exact hkept ms hprefix List.prefix_rfl

/-- With one more moment: the event has happened then, or before. -/
theorem since_concat {m : Moment} :
    start.Since state (ms ++ [m]) event ↔
      (start.run (ms ++ [m])).1.state = state ∧ (event ms m ∨ start.Since state ms event) := by
  constructor
  · intro h
    refine ⟨state_of_since h, ?_⟩
    obtain ⟨before, m', hprefix, hevent, hkept⟩ := h
    rcases List.prefix_concat_iff.mp hprefix with heq | hprefix
    · obtain ⟨rfl, hm⟩ := List.append_inj' heq rfl
      obtain rfl : m' = m := by simpa using hm
      exact .inl hevent
    · exact .inr ⟨before, m', hprefix, hevent,
        fun now hfrom hto => hkept now hfrom (hto.trans (List.prefix_append ms [m]))⟩
  · rintro ⟨hstate, hevent | ⟨before, m', hprefix, hevent, hkept⟩⟩
    · refine ⟨ms, m, List.prefix_rfl, hevent, fun now hfrom hto => ?_⟩
      rw [hto.eq_of_length (Nat.le_antisymm hto.length_le hfrom.length_le)]
      exact hstate
    · refine ⟨before, m', hprefix.trans (List.prefix_append ms [m]), hevent,
        fun now hfrom hto => ?_⟩
      rcases List.prefix_concat_iff.mp hto with rfl | hto
      · exact hstate
      · exact hkept now hfrom hto

end Since

/-! ## The stages of a handshake -/

section Stages

variable (c : Client) (m : Moment)

/-- The device's first message comes, and the client does not have a login under way. -/
def Opens : Prop := c.state ≠ .authenticating ∧ ∃ d body, c.Hears m d .publish .initial body

/-- The device answers that it accepts a login. -/
def HearsAcceptance : Prop :=
  ∃ d body, c.Hears m d .response .login body ∧ d.accepts body = true

/-- The device reports a setting that can be read. -/
def HearsSetting : Prop :=
  ∃ d body, c.Hears m d .publish .mechSetting body ∧ (SettingOs3.ofBytes? body).isSome = true

/-- The device reports a status that can be read. -/
def HearsStatus : Prop :=
  ∃ d body, c.Hears m d .publish .mechStatus body ∧
    (Dialogue.statusOs3? d.model body).isSome = true

end Stages

variable (start : Client) (ms : List Moment)

/-- The login under way began with the device's first message. -/
def LoggingIn : Prop :=
  start.Since .authenticating ms fun before m => (start.run before).1.Opens m

/-- In the login under way the device has accepted. -/
def Accepted : Prop :=
  start.Since .authenticating ms fun before m =>
    start.LoggingIn before ∧ (start.run before).1.HearsAcceptance m

/-- After it has accepted in the login under way, the device has reported a setting. -/
def SettingReported : Prop :=
  start.Since .authenticating ms fun before m =>
    start.Accepted before ∧ (start.run before).1.HearsSetting m

/-- After it has accepted in the login under way, the device has reported a status. -/
def StatusReported : Prop :=
  start.Since .authenticating ms fun before m =>
    start.Accepted before ∧ (start.run before).1.HearsStatus m

/-- With one more moment a full handshake is complete: in the second generation with the accepted
login, in the third with the last report that the client waits for after it. -/
def CompletesHandshake (m : Moment) : Prop :=
  let c := (start.run ms).1
  ∃ d, c.dialogue = some d ∧
    match d.login with
    | .os2 _ => start.LoggingIn ms ∧ c.HearsAcceptance m
    | .os3 .. => start.Accepted ms ∧
        (c.HearsStatus m ∧ (d.model.hasSetting = true → start.SettingReported ms) ∨
          c.HearsSetting m ∧ start.StatusReported ms)

/-! ## Steps -/

section Steps

variable {c : Client} {m : Moment}

/-- A client is authenticating after a step if it was before, or if a login opens. -/
theorem opens_of_step
    (h : (c.step m.host m.request).client.state = .authenticating) :
    c.state = .authenticating ∨ c.Opens m := by
  cases effect_step c m with
  | keep hstate | setKeysOs2 _ _ _ _ _ hstate | setKeysOs3 _ _ _ _ _ _ _ _ hstate
  | encrypt _ _ _ _ _ hstate => exact .inl (hstate.symm.trans h)
  | begin _ _ _ _ hstate | drop hstate => simp [hstate] at h
  | opening d body key own hhears hold => exact .inr ⟨hold, d, body, hhears⟩
  | accept _ _ _ _ hstate | setting _ _ _ _ _ _ _ _ hstate | status _ _ _ _ _ _ _ _ hstate =>
      exact .inl (authenticating_of_ite (hstate.symm.trans h))

/-- When the device accepts a login, nothing counts as reported that the model reports. -/
theorem nothing_reported_of_acceptance (h : c.HearsAcceptance m) {s : Dialogue.Standing}
    (hs : (c.step m.host m.request).client.standing? = some s) {secret : Option Key}
    {setting status : Bool} (hlogin : s.login = .os3 secret setting status) :
    (setting = true → s.model.hasSetting = true → False) ∧ status = false := by
  obtain ⟨d, body, hhears, haccepts⟩ := h
  obtain rfl := Option.some.inj (hs.symm.trans (step_of_accepts hhears haccepts).1)
  obtain ⟨-, rfl, rfl⟩ := Dialogue.login_of_accepted hlogin
  refine ⟨fun hnone hsome => ?_, rfl⟩
  rw [Dialogue.standing_accepted, show d.standing.model = d.model from rfl] at hsome
  simp [hsome] at hnone

/-- In a client that goes on authenticating, what counts as reported after a step has counted before
or is heard now; or the device accepts, and nothing has been reported yet that the model reports. -/
theorem reported_of_step (hbefore : c.state = .authenticating)
    (hafter : (c.step m.host m.request).client.state = .authenticating)
    {s : Dialogue.Standing} (hs : (c.step m.host m.request).client.standing? = some s)
    {secret : Option Key} {setting status : Bool} (hlogin : s.login = .os3 secret setting status) :
    ∃ old oldSecret oldSetting oldStatus, c.standing? = some old ∧ old.model = s.model ∧
      old.login = .os3 oldSecret oldSetting oldStatus ∧
      (setting = true → s.model.hasSetting = true → oldSetting = true ∨ c.HearsSetting m) ∧
      (status = true → oldStatus = true ∨ c.HearsStatus m) := by
  cases effect_step c m with
  | keep _ hstanding =>
      exact ⟨s, _, _, _, hstanding.symm.trans hs, rfl, hlogin, fun h _ => .inl h, .inl⟩
  | begin _ _ _ _ hidle | drop hidle => simp [hidle] at hafter
  | opening _ _ _ _ _ hold => exact absurd hbefore hold
  | setKeysOs2 d old new _ _ _ hstanding =>
      obtain rfl := Option.some.inj (hs.symm.trans hstanding)
      cases hlogin
  | setKeysOs3 d old new oldSetting oldStatus _ hd hold _ hstanding =>
      obtain rfl := Option.some.inj (hs.symm.trans hstanding)
      cases hlogin
      exact ⟨_, _, _, _, standing?_of_dialogue hd, rfl, hold, fun h _ => .inl h, .inl⟩
  | encrypt d key _ hactive _ _ hstanding =>
      obtain rfl := Option.some.inj (hs.symm.trans hstanding)
      exact ⟨_, _, _, _, standing?_of_dialogue (dialogue_of_activeDialogue hactive), rfl, hlogin,
        fun h _ => .inl h, .inl⟩
  | accept d body hhears haccepts _ hstanding =>
      obtain rfl := Option.some.inj (hs.symm.trans hstanding)
      obtain ⟨⟨oldSetting, oldStatus, hold⟩, -⟩ := Dialogue.login_of_accepted hlogin
      obtain ⟨hnone, rfl⟩ := nothing_reported_of_acceptance ⟨d, body, hhears, haccepts⟩ hs hlogin
      exact ⟨_, _, _, _, hhears.standing?, by rw [Dialogue.standing_accepted], hold,
        fun h hsome => (hnone h hsome).elim, fun h => Bool.noConfusion h⟩
  | setting d body old oldSetting oldStatus hhears hreports hold _ hstanding =>
      obtain rfl := Option.some.inj (hs.symm.trans hstanding)
      cases hlogin
      exact ⟨_, _, _, _, hhears.standing?, rfl, hold,
        fun _ _ => .inr ⟨d, body, hhears, hreports⟩, .inl⟩
  | status d body old oldSetting oldStatus hhears hreports hold _ hstanding =>
      obtain rfl := Option.some.inj (hs.symm.trans hstanding)
      cases hlogin
      exact ⟨_, _, _, _, hhears.standing?, rfl, hold, fun h _ => .inl h,
        fun _ => .inr ⟨d, body, hhears, hreports⟩⟩

/-- What makes a client active: in the second generation the accepted login, in the third the last
of the reports that it waits for. -/
theorem activates_of_step (hbefore : c.state ≠ .active)
    (hafter : (c.step m.host m.request).client.state = .active) :
    ∃ d, c.dialogue = some d ∧
      match d.login with
      | .os2 _ => c.HearsAcceptance m
      | .os3 _ setting status =>
          (setting = true ∧ c.HearsStatus m) ∨ (status = true ∧ c.HearsSetting m) := by
  cases effect_step c m with
  | keep hstate | setKeysOs2 _ _ _ _ _ hstate | setKeysOs3 _ _ _ _ _ _ _ _ hstate
  | encrypt _ _ _ _ _ hstate => exact absurd (hstate.symm.trans hafter) hbefore
  | begin _ _ _ _ hstate | drop hstate | opening _ _ _ _ _ _ _ hstate => simp [hstate] at hafter
  | accept d body hhears haccepts hstate =>
      refine ⟨d, hhears.dialogue, ?_⟩
      rw [hstate] at hafter
      unfold Dialogue.osVersion at hafter
      split
      · exact ⟨d, body, hhears, haccepts⟩
      · rename_i hlogin
        rw [hlogin] at hafter
        exact absurd hafter hbefore
  | setting d body secret setting status hhears hreports hlogin hstate =>
      refine ⟨d, hhears.dialogue, ?_⟩
      rw [hlogin]
      rw [hstate] at hafter
      split at hafter
      · rename_i hready
        exact .inr ⟨hready, d, body, hhears, hreports⟩
      · exact absurd hafter hbefore
  | status d body secret setting status hhears hreports hlogin hstate =>
      refine ⟨d, hhears.dialogue, ?_⟩
      rw [hlogin]
      rw [hstate] at hafter
      split at hafter
      · rename_i hready
        exact .inl ⟨hready, d, body, hhears, hreports⟩
      · exact absurd hafter hbefore

/-- A step ends the session, begins one, or keeps it in the same state or in an active client. -/
theorem isSome_sessionKey?_of_step :
    let c' := (c.step m.host m.request).client
    (c'.state = .idle ∧ c'.sessionKey? = none) ∨
    (c'.state = .authenticating ∧ c'.sessionKey?.isSome = true) ∨
    (c'.sessionKey?.isSome = c.sessionKey?.isSome ∧ (c'.state = c.state ∨ c'.state = .active)) := by
  intro c'
  simp only [sessionKey?_eq_standing?]
  cases effect_step c m with
  | keep hstate hstanding => exact .inr (.inr ⟨by rw [hstanding], .inl hstate⟩)
  | begin model d hrequest hd hstate hstanding =>
      refine .inl ⟨hstate, ?_⟩
      rw [hstanding]
      rcases Dialogue.standing_of_ofModel? hd with ⟨-, hnew⟩ | ⟨-, hnew⟩ <;> rw [hnew] <;> rfl
  | drop hstate hstanding =>
      refine .inl ⟨hstate, ?_⟩
      rw [hstanding]
      cases c.standing? <;> rfl
  | opening d body key own hhears hold hderives hstate hstanding =>
      refine .inr (.inl ⟨hstate, ?_⟩)
      rw [hstanding]
      rfl
  | setKeysOs2 d old new hd hlogin hstate hstanding
  | setKeysOs3 d old new setting status hrequest hd hlogin hstate hstanding =>
      refine .inr (.inr ⟨?_, .inl hstate⟩)
      rw [hstanding, standing?_of_dialogue hd]
      rfl
  | encrypt d key hrequest hactive hkey hstate hstanding =>
      refine .inr (.inr ⟨?_, .inl hstate⟩)
      rw [hstanding, standing?_of_dialogue (dialogue_of_activeDialogue hactive)]
      simp [Dialogue.standing, Cipher.session?, hkey]
  | accept d body hhears haccepts hstate hstanding =>
      refine .inr (.inr ⟨?_, ?_⟩)
      · rw [hstanding, hhears.standing?, Dialogue.standing_accepted]
        rfl
      · rw [hstate]
        split
        · exact .inr rfl
        · exact .inl rfl
  | setting d body secret setting status hhears hreports hlogin hstate hstanding =>
      refine .inr (.inr ⟨?_, ?_⟩)
      · rw [hstanding, hhears.standing?]
        rfl
      · rw [hstate]
        cases status with
        | true => exact .inr rfl
        | false => exact .inl rfl
  | status d body secret setting status hhears hreports hlogin hstate hstanding =>
      refine .inr (.inr ⟨?_, ?_⟩)
      · rw [hstanding, hhears.standing?]
        rfl
      · rw [hstate]
        cases setting with
        | true => exact .inr rfl
        | false => exact .inl rfl

end Steps

/-! ## Runs -/

section Runs

variable {start : Client} {ms : List Moment}

/-- A client that is authenticating has a login under way. -/
theorem loggingIn_run {random : RandomSource} {ms : List Moment}
    (h : ((Client.new random).run ms).1.state = .authenticating) :
    (Client.new random).LoggingIn ms := by
  induction ms using List.reverseRecOn with
  | nil => cases h
  | append_singleton ms m ih =>
      rw [LoggingIn, since_concat]
      refine ⟨h, ?_⟩
      rw [run_concat] at h
      rcases opens_of_step h with hbefore | hopens
      · exact .inr (ih hbefore)
      · exact .inl hopens

/-- In a login that the device has accepted, what counts as reported has been reported since. -/
theorem reported_of_accepted {start : Client} {ms : List Moment} (h : start.Accepted ms)
    {s : Dialogue.Standing} (hs : (start.run ms).1.standing? = some s) {secret : Option Key}
    {setting status : Bool} (hlogin : s.login = .os3 secret setting status) :
    (setting = true → s.model.hasSetting = true → start.SettingReported ms) ∧
      (status = true → start.StatusReported ms) := by
  induction ms using List.reverseRecOn generalizing s secret setting status with
  | nil =>
      obtain ⟨before, m, hprefix, -⟩ := h
      simp at hprefix
  | append_singleton ms m ih =>
      obtain ⟨hstate, hevent⟩ := since_concat.mp h
      simp only [StatusReported, SettingReported, since_concat, hstate, true_and]
      rw [run_concat] at hs hstate
      by_cases hacceptance : (start.run ms).1.HearsAcceptance m
      -- The device has just accepted, and everything is still to come.
      · obtain ⟨hnone, hfalse⟩ := nothing_reported_of_acceptance hacceptance hs hlogin
        exact ⟨fun h hsome => (hnone h hsome).elim,
          fun h => (Bool.false_ne_true (hfalse.symm.trans h)).elim⟩
      · have haccepted : start.Accepted ms := hevent.resolve_left fun h => hacceptance h.2
        obtain ⟨old, oldSecret, oldSetting, oldStatus, hold, hmodel, hlogin, hsetting, hstatus⟩ :=
          reported_of_step (state_of_since haccepted) hstate hs hlogin
        obtain ⟨ihsetting, ihstatus⟩ := ih haccepted hold hlogin
        refine ⟨fun h hsome => ?_, fun h => ?_⟩
        · rcases hsetting h hsome with hbefore | hnow
          · exact .inr (ihsetting hbefore (hmodel ▸ hsome))
          · exact .inl ⟨haccepted, hnow⟩
        · rcases hstatus h with hbefore | hnow
          · exact .inr (ihstatus hbefore)
          · exact .inl ⟨haccepted, hnow⟩

/-- A full handshake in the client's own conversation. -/
theorem completesHandshake_iff {d : Dialogue} (hd : (start.run ms).1.dialogue = some d)
    (m : Moment) :
    start.CompletesHandshake ms m ↔
      match d.login with
      | .os2 _ => start.LoggingIn ms ∧ (start.run ms).1.HearsAcceptance m
      | .os3 .. => start.Accepted ms ∧
          ((start.run ms).1.HearsStatus m ∧
              (d.model.hasSetting = true → start.SettingReported ms) ∨
            (start.run ms).1.HearsSetting m ∧ start.StatusReported ms) := by
  simp only [CompletesHandshake, hd, Option.some.injEq, exists_eq_left']

/-- Whether a client has a session key follows from its state, except that an active client has one
only if it was authenticating when it became active. -/
theorem isSome_sessionKey?_run (random : RandomSource) (ms : List Moment) :
    let start := Client.new random
    let c := (start.run ms).1
    (c.state = .idle → c.sessionKey?.isSome = false) ∧
    (c.state = .authenticating → c.sessionKey?.isSome = true) ∧
    (c.state = .active → (c.sessionKey?.isSome = true ↔
      start.Since .active ms fun before _ => (start.run before).1.state = .authenticating)) := by
  intro start
  induction ms using List.reverseRecOn with
  | nil =>
      exact ⟨fun _ => rfl, fun h => ClientState.noConfusion h, fun h => ClientState.noConfusion h⟩
  | append_singleton ms m ih =>
      obtain ⟨hidle, hauthenticating, hactive⟩ := ih
      simp only [since_concat, run_concat]
      rcases isSome_sessionKey?_of_step (c := (start.run ms).1) (m := m) with
        ⟨hstate, hkey⟩ | ⟨hstate, hkey⟩ | ⟨hkey, hstate⟩
      · simp [hstate, hkey]
      · simp [hstate, hkey]
      · rw [hkey]
        cases hold : (start.run ms).1.state with
        | idle =>
            have hnot : ¬ start.Since .active ms fun before _ =>
                (start.run before).1.state = .authenticating := fun h => by
              simp [state_of_since h] at hold
            rcases hstate with hstate | hstate <;> simp [hstate, hold, hidle hold, hnot]
        | authenticating =>
            rcases hstate with hstate | hstate <;> simp [hstate, hold, hauthenticating hold]
        | active =>
            have hstate : ((start.run ms).1.step m.host m.request).client.state = .active :=
              hstate.elim (·.trans hold) id
            simp [hstate, hactive hold]

/-- **Becoming active.**  In every run of a new client, and with any moment that follows:

* the client becomes authenticating only with the device's first message;
* it becomes active only with the message that it waits for, and then it has completed a full
  handshake exactly if it was authenticating and, in the third generation, the device had accepted
  in the login under way;
* an idle client has no session key, one that is authenticating has one, and an active client has
  one exactly if it was authenticating when it became active. -/
theorem activation_run (random : RandomSource) (ms : List Moment) (m : Moment) :
    let start := Client.new random
    let c := (start.run ms).1
    let c' := (c.step m.host m.request).client
    (c.state ≠ .authenticating → c'.state = .authenticating → c.Opens m) ∧
    (c.state ≠ .active → c'.state = .active → ∃ d, c.dialogue = some d ∧
      match d.login with
      | .os2 _ => c.HearsAcceptance m ∧
          (start.CompletesHandshake ms m ↔ c.state = .authenticating)
      | .os3 _ setting status =>
          ((setting = true ∧ c.HearsStatus m) ∨ (status = true ∧ c.HearsSetting m)) ∧
          (start.CompletesHandshake ms m ↔ start.Accepted ms)) ∧
    (c.state = .idle → c.sessionKey?.isSome = false) ∧
    (c.state = .authenticating → c.sessionKey?.isSome = true) ∧
    (c.state = .active → (c.sessionKey?.isSome = true ↔
      start.Since .active ms fun before _ => (start.run before).1.state = .authenticating)) := by
  intro start c c'
  refine ⟨fun hne h => (opens_of_step h).resolve_left hne, fun hne h => ?_,
    isSome_sessionKey?_run random ms⟩
  obtain ⟨d, hd, hactivates⟩ := activates_of_step hne h
  refine ⟨d, hd, ?_⟩
  have hcompletes := completesHandshake_iff hd m
  cases hlogin : d.login with
  | os2 keys =>
      rw [hlogin] at hactivates hcompletes
      refine ⟨hactivates, hcompletes.trans ⟨fun h => state_of_since h.1, fun h => ?_⟩⟩
      exact ⟨loggingIn_run h, hactivates⟩
  | os3 secret setting status =>
      rw [hlogin] at hactivates hcompletes
      refine ⟨hactivates, hcompletes.trans ⟨And.left, fun haccepted => ⟨haccepted, ?_⟩⟩⟩
      obtain ⟨hsetting, hstatus⟩ :=
        reported_of_accepted haccepted (standing?_of_dialogue hd) hlogin
      rcases hactivates with ⟨hready, hhears⟩ | ⟨hready, hhears⟩
      · exact .inl ⟨hhears, hsetting hready⟩
      · exact .inr ⟨hhears, hstatus hready⟩

end Runs

/-- After a login in plain the client has a session key, and it was authenticating when it became
active. -/
theorem activation_run_plainRun :
    let start := Client.new (RandomSource.ofSeed 3)
    (start.run plainRun).1.state = .active ∧
      start.Since .active plainRun fun before _ =>
        (start.run before).1.state = .authenticating := by
  intro start
  have hactive : (start.run plainRun).1.state = .active := by decide +kernel
  have hkey : (start.run plainRun).1.sessionKey?.isSome = true := by decide +kernel
  obtain ⟨-, -, -, -, hiff⟩ :=
    activation_run (RandomSource.ofSeed 3) plainRun ⟨quietHost, .disconnect⟩
  exact ⟨hactive, (hiff hactive).mp hkey⟩

/-- A device reports a setting and a status to a client that has neither keys nor a login. -/
def reportsRun : List Moment :=
  [⟨quietHost, .begin .sesame5⟩, ⟨quietHost, .receive [3, 8, 80, 0, 0, 0, 0, 0, 0]⟩,
    ⟨quietHost, .receive [3, 8, 81, 0, 0, 0, 0, 0, 0, 0]⟩]

/-- Not every active client has a session key: the reports alone make an idle client active. -/
theorem not_forall_active_keyed :
    ¬ ∀ (random : RandomSource) (ms : List Moment),
      ((Client.new random).run ms).1.state = .active →
      ((Client.new random).run ms).1.sessionKey?.isSome = true := by
  intro h
  exact absurd (h (RandomSource.ofSeed 3) reportsRun (by decide +kernel)) (by decide +kernel)

end SmartLock.Client
