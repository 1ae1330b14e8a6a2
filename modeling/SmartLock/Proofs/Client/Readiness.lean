/-
# When a client of the third generation is ready

After the device has accepted a login, the client waits for a status and, if its model has settings,
for a setting.  Both may come in any order and any number of times, and a report that is too short
for the model is passed over.  What has been reported before the login was accepted does not count.

`Client.Waits` is what holds while the reports come: the login remembers which of them have come
since, and the state follows from that.  `Client.readiness_run` says when the client becomes active,
and what it tells of it.
-/
import SmartLock.Proofs.Client.LoginSteps
import SmartLock.Proofs.Link.WholeMessages

namespace SmartLock

/-! ## Reports -/

/-- A report that may follow an accepted login. -/
inductive Report where
  | setting
  | status
  deriving DecidableEq, Repr

namespace Report

/-- The item that the report is about. -/
def item : Report → ItemCode
  | .setting => .mechSetting
  | .status => .mechStatus

/-- The fewest bytes of a report of a model: six of a setting, three of the status of a bot, and
seven of the status of any other device. -/
def size (model : Model) : Report → Nat
  | .setting => 6
  | .status => if model = .sesameBot2 then 3 else 7

/-- Whether the client waits for the report: a status always comes, a setting only from a model that
has one. -/
def isAwaited (model : Model) : Report → Bool
  | .setting => model.hasSetting
  | .status => true

/-- A report is known by the code of its item. -/
theorem code_item_inj {r r' : Report} (h : r.item.code = r'.item.code) : r = r' := by
  cases r <;> cases r' <;> first | rfl | exact absurd h (by decide)

/-- What holds of both reports holds of every report. -/
theorem forall_iff {p : Report → Prop} : (∀ r, p r) ↔ p .setting ∧ p .status :=
  ⟨fun h => ⟨h _, h _⟩, fun h r => by cases r; exacts [h.1, h.2]⟩

end Report

/-- A setting of the third generation can be read from six bytes. -/
theorem SettingOs3.isSome_ofBytes?_iff {body : Bytes} :
    (SettingOs3.ofBytes? body).isSome = true ↔ 6 ≤ body.length := by
  unfold ofBytes?
  split <;> simp <;> omega

/-- A status of the third generation can be read from seven bytes. -/
theorem StatusOs3.isSome_ofBytes?_iff {body : Bytes} :
    (StatusOs3.ofBytes? body).isSome = true ↔ 7 ≤ body.length := by
  have hdrop : (body.drop 6).length = body.length - 6 := List.length_drop
  unfold ofBytes?
  split <;> rename_i hrest <;> rw [hrest] at hdrop <;> simp at hdrop ⊢ <;> omega

/-- The status of a bot can be read from three bytes. -/
theorem StatusBot2.isSome_ofBytes?_iff {body : Bytes} :
    (StatusBot2.ofBytes? body).isSome = true ↔ 3 ≤ body.length := by
  match body with
  | [] | [_] | [_, _] => simp [ofBytes?]
  | _ :: _ :: _ :: _ => simp [ofBytes?]

/-- A status of a model of the third generation can be read if it is long enough for the model. -/
theorem Dialogue.isSome_statusOs3?_iff {model : Model} {body : Bytes} :
    (Dialogue.statusOs3? model body).isSome = true ↔ Report.status.size model ≤ body.length := by
  unfold statusOs3? Report.size
  split
  · rw [Option.isSome_map, StatusBot2.isSome_ofBytes?_iff]
  · rw [Option.isSome_map, StatusOs3.isSome_ofBytes?_iff]

/-- A login of the third generation for which these reports count as received. -/
def Login.reported (secret : Option Key) (received : Report → Bool) : Login :=
  .os3 secret (received .setting) (received .status)

/-- What a fragment of a report leads to: at the end of its packet to the report, with any body, and
before to nothing of note. -/
def Received.IsOfReport (received : Received) : Prop :=
  received.IsQuiet ∨ ∃ (r : Report) (body : Bytes) (authenticated : Bool),
    received = .complete (OpCode.publish.code :: r.item.code :: body) authenticated

/-- The fragments of reports in plain, with their bodies, one after the other. -/
def Report.inPlain (reports : List (Report × Bytes)) : List Bytes :=
  reports.flatMap fun report =>
    Fragment.split false (OpCode.publish.code :: report.1.item.code :: report.2)

/-- Reports in plain are read as such by every channel. -/
theorem Channel.isOfReport_inPlain (channel : Channel) (reports : List (Report × Bytes)) :
    ∀ received ∈ (channel.receiveAll (Report.inPlain reports)).2, received.IsOfReport := by
  induction reports generalizing channel with
  | nil => nofun
  | cons report rest ih =>
      obtain ⟨-, hfirst⟩ := channel.receiveAll_split_plain
        (List.cons_ne_nil OpCode.publish.code (report.1.item.code :: report.2))
      rw [Report.inPlain, List.flatMap_cons, receiveAll_append]
      refine List.forall_mem_append.mpr ⟨fun received hreceived => ?_, ih _⟩
      exact (hfirst received hreceived).imp_right fun h => ⟨report.1, report.2, false, h⟩

/-! ## Told states -/

/-- The state that an output tells. -/
def ClientOutput.state? : ClientOutput → Option ClientState
  | .state new => some new
  | _ => none

/-- The states that some outputs tell, in their order. -/
def toldStates (outputs : List ClientOutput) : List ClientState :=
  outputs.filterMap ClientOutput.state?

theorem toldStates_append (first second : List ClientOutput) :
    toldStates (first ++ second) = toldStates first ++ toldStates second := List.filterMap_append

/-- What is to be told when a client has come from one state to another: that it has become active,
if it has and somebody listens. -/
def toldOfReadiness (observed : Bool) (before after : ClientState) : List ClientState :=
  if before ≠ .active ∧ after = .active ∧ observed = true then [.active] else []

/-- In the same state there is nothing to tell. -/
theorem toldOfReadiness_self (observed : Bool) (state : ClientState) :
    toldOfReadiness observed state state = [] := if_neg fun h => h.1 h.2.1

namespace ClientTurn

variable (host : ClientHost) (t : ClientTurn)

/-- What is told about the device comes before all else, and moves no state. -/
theorem apply_cons_of_isNews {news : Event} (h : news.isNews = true) (rest : List Event) :
    ∃ t' : ClientTurn, t.apply host (news :: rest) = t'.apply host rest ∧
      t'.client.dialogue = t.client.dialogue ∧ t'.client.state = t.client.state ∧
      toldStates t'.outputs = toldStates t.outputs := by
  have hemit (t : ClientTurn) (observed : Bool) {output : ClientOutput}
      (hnone : output.state? = none) :
      toldStates (t.emitIf observed output).outputs = toldStates t.outputs := by
    rw [outputs_emitIf, toldStates_append]
    cases observed <;> simp [toldStates, hnone]
  cases news with
  | disconnect => cases h
  | state new => cases h
  | setting setting =>
      exact ⟨{ t with client := { t.client with setting := some setting } }, rfl, rfl, rfl, rfl⟩
  | status status =>
      refine ⟨_, rfl, ?_, ?_, hemit _ _ rfl⟩ <;> rw [client_emitIf]
  | history history =>
      refine ⟨_, rfl, ?_, ?_, hemit _ _ rfl⟩ <;> rw [client_emitIf]

/-- A client that becomes active tells so, and tells no other state. -/
theorem toldStates_apply_activation (setting status : Bool) :
    let after := t.apply host (Dialogue.activation t.client.state setting status)
    toldStates after.outputs = toldStates t.outputs ++
      toldOfReadiness host.observers.state t.client.state after.client.state := by
  rcases Dialogue.activation_cases t.client.state setting status with
    ⟨hinactive, -, hactivation⟩ | ⟨-, hactivation⟩
  · rw [hactivation, apply, apply]
    dsimp only
    rw [state_setState, setState, if_neg hinactive, outputs_emitIf, toldStates_append]
    cases hobserved : host.observers.state <;>
      simp [toldOfReadiness, hinactive, toldStates, ClientOutput.state?]
  · rw [hactivation, apply]
    dsimp only
    rw [toldOfReadiness_self, List.append_nil]

end ClientTurn

namespace Client

/-! ## Hearing reports -/

section Reports

variable (c : Client) (m : Moment)

/-- The device makes a report that is long enough for its model. -/
def HearsReport (r : Report) : Prop :=
  ∃ d body, c.Hears m d .publish r.item body ∧ r.size d.model ≤ body.length

/-- The client takes a fragment in, and nothing but its channel changes. -/
def OnlyTakesIn : Prop :=
  ∃ d fragment, c.dialogue = some d ∧ m.request = .receive fragment ∧
    c.step m.host m.request = ⟨c.withDialogue (d.hearing fragment), [], .ok ()⟩

end Reports

/-- A fragment with which nothing is done is only taken in. -/
theorem step_of_receive {c : Client} {m : Moment} {d : Dialogue} {fragment : Bytes}
    (hrequest : m.request = .receive fragment)
    (h : receive m.host c fragment = heard c d fragment) :
    c.step m.host m.request = ⟨c.withDialogue (d.hearing fragment), [], .ok ()⟩ := by
  rw [hrequest, step, h]
  rfl

section Hearing

variable {c : Client} {m : Moment} {d : Dialogue} {fragment : Bytes}
  (hd : c.dialogue = some d) (hrequest : m.request = .receive fragment)

include hd hrequest

/-- What is heard at a moment is the message that its fragment completes. -/
theorem hears_iff {d' : Dialogue} {op : OpCode} {item : ItemCode} {body : Bytes} :
    c.Hears m d' op item body ↔ d' = d ∧ ∃ authenticated,
      (d.channel.receive fragment).2 = .complete (op.code :: item.code :: body) authenticated := by
  constructor
  · rintro ⟨fragment', authenticated, hrequest', hd', hreceived⟩
    obtain rfl := Option.some.inj (hd'.symm.trans hd)
    obtain rfl := Request.receive.inj (hrequest'.symm.trans hrequest)
    exact ⟨rfl, authenticated, hreceived⟩
  · rintro ⟨rfl, authenticated, hreceived⟩
    exact ⟨fragment, authenticated, hrequest, hd, hreceived⟩

/-- A fragment of no note completes no report. -/
theorem not_hearsReport_of_isQuiet (h : (d.channel.receive fragment).2.IsQuiet) (r : Report) :
    ¬ c.HearsReport m r := by
  rintro ⟨d', body, hhears, -⟩
  obtain ⟨rfl, authenticated, hreceived⟩ := (hears_iff hd hrequest).mp hhears
  exact h.2 _ _ hreceived

/-- The report that a fragment completes is the one that is heard, if it is long enough. -/
theorem hearsReport_iff {r : Report} {body : Bytes} {authenticated : Bool}
    (h : (d.channel.receive fragment).2 =
      .complete (OpCode.publish.code :: r.item.code :: body) authenticated) (r' : Report) :
    c.HearsReport m r' ↔ r' = r ∧ r.size d.model ≤ body.length := by
  constructor
  · rintro ⟨d', body', hhears, hsize⟩
    obtain ⟨rfl, authenticated', hreceived⟩ := (hears_iff hd hrequest).mp hhears
    obtain ⟨hmessage, -⟩ := Received.complete.inj (hreceived.symm.trans h)
    obtain ⟨hcode, rfl⟩ := List.cons.inj (List.cons.inj hmessage).2
    obtain rfl := Report.code_item_inj hcode
    exact ⟨rfl, hsize⟩
  · rintro ⟨rfl, hsize⟩
    exact ⟨d, body, (hears_iff hd hrequest).mpr ⟨rfl, authenticated, h⟩, hsize⟩

end Hearing

/-! ## Steps -/

section Steps

variable {c : Client} {d : Dialogue} {fragment : Bytes} {r : Report} {body : Bytes}
  {authenticated : Bool} (host : ClientHost) (hd : c.dialogue = some d)
  {secret : Option Key} {received : Report → Bool} (hlogin : d.login = .reported secret received)
  (h : (d.channel.receive fragment).2 =
    .complete (OpCode.publish.code :: r.item.code :: body) authenticated)

include hd hlogin h

/-- A report that is too short is passed over. -/
theorem receive_of_length_lt (hsize : body.length < r.size d.model) :
    receive host c fragment = heard c d fragment := by
  obtain ⟨model, channel, login⟩ := d
  obtain rfl : login = .reported secret received := hlogin
  rw [receive_of_complete host hd h, onMessage_publish]
  cases r with
  | setting =>
      have hnone : SettingOs3.ofBytes? body = none := by
        rw [← Option.not_isSome_iff_eq_none, SettingOs3.isSome_ofBytes?_iff]
        exact Nat.not_le.mpr hsize
      simp only [Report.item, onPublish, Dialogue.onSetting, Dialogue.hearing, Login.reported,
        hnone]
      rfl
  | status =>
      have hnone : Dialogue.statusOs3? model body = none := by
        rw [← Option.not_isSome_iff_eq_none, Dialogue.isSome_statusOs3?_iff]
        exact Nat.not_le.mpr hsize
      simp only [Report.item, onPublish, Dialogue.onStatus, Dialogue.hearing, Login.reported, hnone]
      rfl

/-- A report that is long enough is told and remembered, and makes the client active if it has
waited for nothing else. -/
theorem receive_of_le_length (hsize : r.size d.model ≤ body.length) :
    let now := Function.update received r true
    ∃ t : ClientTurn, receive host c fragment =
        t.apply host (Dialogue.activation t.client.state (now .setting) (now .status)) ∧
      t.client.dialogue = some { d.hearing fragment with login := .reported secret now } ∧
      t.client.state = c.state ∧ toldStates t.outputs = [] := by
  intro now
  let taken : ClientTurn :=
    { client := c.withDialogue { d.hearing fragment with login := .reported secret now } }
  have hreceive : ∃ news : Event, news.isNews = true ∧ receive host c fragment =
      taken.apply host (news :: Dialogue.activation c.state (now .setting) (now .status)) := by
    cases r with
    | setting =>
        obtain ⟨reported, hreported⟩ :=
          Option.isSome_iff_exists.mp (SettingOs3.isSome_ofBytes?_iff.mpr hsize)
        exact ⟨_, rfl, receive_eq_of_setting host hd hlogin h hreported⟩
    | status =>
        obtain ⟨reported, hreported⟩ :=
          Option.isSome_iff_exists.mp (Dialogue.isSome_statusOs3?_iff.mpr hsize)
        exact ⟨_, rfl, receive_eq_of_status host hd hlogin h hreported⟩
  obtain ⟨news, hnews, hreceive⟩ := hreceive
  obtain ⟨t, happly, hdialogue, hstate, htold⟩ := taken.apply_cons_of_isNews host hnews
    (Dialogue.activation c.state (now .setting) (now .status))
  have hstate : t.client.state = c.state := hstate
  exact ⟨t, by rw [hreceive, happly, hstate], hdialogue, hstate, htold⟩

end Steps

/-- What a client of the third generation does with a fragment of a report: at most one report is
heard; if none is, the fragment is only taken in. -/
theorem step_cases_of_isOfReport {c : Client} {m : Moment} {d : Dialogue} {fragment : Bytes}
    (hd : c.dialogue = some d) {secret : Option Key} {received : Report → Bool}
    (hlogin : d.login = .reported secret received) (hrequest : m.request = .receive fragment)
    (h : (d.channel.receive fragment).2.IsOfReport) :
    (c.step m.host m.request = ⟨c.withDialogue (d.hearing fragment), [], .ok ()⟩ ∧
      ∀ r, ¬ c.HearsReport m r) ∨
    ∃ r, ∃ t : ClientTurn, (∀ r', c.HearsReport m r' ↔ r' = r) ∧
      let now := Function.update received r true
      c.step m.host m.request = (t.apply m.host
          (Dialogue.activation t.client.state (now .setting) (now .status))).finish (.ok ()) ∧
      t.client.dialogue = some { d.hearing fragment with login := .reported secret now } ∧
      t.client.state = c.state ∧ toldStates t.outputs = [] := by
  rcases h with hquiet | ⟨r, body, authenticated, hcomplete⟩
  · exact .inl ⟨step_of_receive hrequest (receive_of_isQuiet m.host hd hquiet),
      not_hearsReport_of_isQuiet hd hrequest hquiet⟩
  · have hheard := hearsReport_iff hd hrequest hcomplete
    by_cases hsize : r.size d.model ≤ body.length
    · obtain ⟨t, hreceive, ht⟩ := receive_of_le_length m.host hd hlogin hcomplete hsize
      refine .inr ⟨r, t, fun r' => ?_, ?_, ht⟩
      · rw [hheard r', and_iff_left hsize]
      · rw [hrequest, step, hreceive]
    · have hreceive := receive_of_length_lt m.host hd hlogin hcomplete (Nat.not_le.mp hsize)
      exact .inl ⟨step_of_receive hrequest hreceive, fun r' hr' => hsize ((hheard r').mp hr').2⟩

/-! ## Waiting for reports -/

/-- A client of the third generation, with its end of the link, for which these reports count as
received in the present login: it is active if all of them do, and waits otherwise. -/
structure Waits (c : Client) (model : Model) (channel : Channel) (received : Report → Bool) :
    Prop where
  dialogue : ∃ secret, c.dialogue = some ⟨model, channel, .reported secret received⟩
  state : c.state =
    if (received .setting && received .status) = true then .active else .authenticating

namespace Waits

variable {c : Client} {model : Model} {channel : Channel} {received : Report → Bool}
  (h : c.Waits model channel received)

include h

/-- The client is active exactly if all reports count as received. -/
theorem active_iff : c.state = .active ↔ ∀ r, received r = true := by
  rw [h.state, Report.forall_iff, ← Bool.and_eq_true]
  split <;> simp_all

/-- Otherwise it waits. -/
theorem authenticating_of_not (hnot : c.state ≠ .active) : c.state = .authenticating := by
  rw [h.state] at hnot ⊢
  split at hnot
  · exact absurd rfl hnot
  · rename_i hwaits
    rw [if_neg hwaits]

/-- With a report that is too short for the model nothing is done. -/
theorem onlyTakesIn {m : Moment} {d : Dialogue} {r : Report} {body : Bytes}
    (hhears : c.Hears m d .publish r.item body) (hsize : body.length < r.size model) :
    c.OnlyTakesIn m := by
  obtain ⟨secret, hd'⟩ := h.dialogue
  obtain ⟨fragment, authenticated, hrequest, hd, hreceived⟩ := hhears
  obtain rfl := Option.some.inj (hd'.symm.trans hd)
  have hreceive := receive_of_length_lt m.host hd rfl hreceived hsize
  exact ⟨_, fragment, hd, hrequest, step_of_receive hrequest hreceive⟩

section Steps

variable {m : Moment} {fragment : Bytes} (hrequest : m.request = .receive fragment)
  (hreceived : (channel.receive fragment).2.IsOfReport)

include hrequest hreceived

/-- Every fragment adds the report that is heard with it, and the client tells when it becomes
active. -/
theorem step :
    let outcome := c.step m.host m.request
    (∃ now : Report → Bool, outcome.client.Waits model (channel.receive fragment).1 now ∧
      ∀ r, now r = true ↔ received r = true ∨ c.HearsReport m r) ∧
    toldStates outcome.outputs =
      toldOfReadiness m.host.observers.state c.state outcome.client.state := by
  obtain ⟨⟨secret, hd⟩, hstate⟩ := h
  rcases step_cases_of_isOfReport hd rfl hrequest hreceived with
    ⟨hstep, hnone⟩ | ⟨r, t, hheard, hstep, hdialogue, hsame, htold⟩
  · rw [hstep]
    refine ⟨⟨received, ⟨⟨secret, rfl⟩, hstate⟩, fun r => ?_⟩, ?_⟩
    · rw [or_iff_left (hnone r)]
    · exact (toldOfReadiness_self ..).symm
  · generalize hnow : Function.update received r true = now at hstep hdialogue
    have hadded (r' : Report) : now r' = true ↔ received r' = true ∨ c.HearsReport m r' := by
      rw [hheard r', ← hnow, Function.update_apply]
      split <;> simp_all
    have hkept : (received .setting && received .status) = true →
        (now .setting && now .status) = true := by
      simp only [Bool.and_eq_true, hadded]
      exact fun hall => ⟨.inl hall.1, .inl hall.2⟩
    have hclient := t.client_apply_activation m.host (now .setting) (now .status)
    have hwaits :
        (c.step m.host m.request).client.Waits model (channel.receive fragment).1 now := by
      refine ⟨⟨secret, ?_⟩, ?_⟩
      · rw [hstep, ClientTurn.finish, hclient]
        exact hdialogue
      · rw [hstep, ClientTurn.finish, hclient, hsame, hstate]
        split
        · rfl
        · rename_i hmissing
          exact if_neg fun hall => hmissing (hkept hall)
    refine ⟨⟨now, hwaits, hadded⟩, ?_⟩
    rw [hstep, ClientTurn.finish, ClientTurn.toldStates_apply_activation, htold, hsame,
      List.nil_append]

/-- An active client stays active. -/
theorem active_step (hactive : c.state = .active) :
    (c.step m.host m.request).client.state = .active := by
  obtain ⟨⟨now, hwaits, hnow⟩, -⟩ := h.step hrequest hreceived
  exact hwaits.active_iff.mpr fun r => (hnow r).mpr (.inl (h.active_iff.mp hactive r))

end Steps

end Waits

/-- The device accepts a login in the third generation: the client puts nothing out, and what its
model does not report counts as received. -/
theorem step_of_acceptance {c : Client} {m : Moment} {d : Dialogue} {body : Bytes}
    (hos3 : d.osVersion = .os3) (hstate : c.state = .authenticating)
    (hhears : c.Hears m d .response .login body) (haccepts : d.accepts body = true) :
    (∃ channel, (c.step m.host m.request).client.Waits d.model channel
      (fun r => !r.isAwaited d.model)) ∧ (c.step m.host m.request).outputs = [] := by
  obtain ⟨fragment, authenticated, hrequest, hd, hreceived⟩ := hhears
  cases hlogin : d.login with
  | os2 keys => simp [Dialogue.osVersion, hlogin] at hos3
  | os3 secret setting status =>
      have hreceive := receive_accepted m.host hd hlogin hreceived haccepts
      rw [hrequest, step, hreceive]
      refine ⟨⟨(d.channel.receive fragment).1, ⟨secret, rfl⟩, ?_⟩, rfl⟩
      rw [ClientTurn.finish, Report.isAwaited, Report.isAwaited, Bool.not_true, Bool.and_false]
      exact hstate

/-! ## Runs of reports -/

/-- These moments bring these fragments, and all of them are of reports, as the channel reads
them. -/
structure BringReports (channel : Channel) (ms : List Moment) (fragments : List Bytes) : Prop where
  requests : ms.map Moment.request = fragments.map Request.receive
  read : ∀ received ∈ (channel.receiveAll fragments).2, received.IsOfReport

/-- All reports that the client waits for have come in a run. -/
def Ready (start : Client) (model : Model) (ms : List Moment) : Prop :=
  ∀ r : Report, r.isAwaited model = true → start.Happens ms fun c m => c.HearsReport m r

section Runs

variable {start : Client} {model : Model} {channel : Channel} {received : Report → Bool}
  {ms : List Moment} {fragments : List Bytes}

/-- The last moment brings the last fragment. -/
theorem BringReports.last {m : Moment} (h : BringReports channel (ms ++ [m]) fragments) :
    ∃ first fragment, BringReports channel ms first ∧ m.request = .receive fragment ∧
      (channel.receiveAll fragments).1 = ((channel.receiveAll first).1.receive fragment).1 ∧
      ((channel.receiveAll first).1.receive fragment).2.IsOfReport := by
  obtain ⟨hrequests, hread⟩ := h
  rw [List.map_append] at hrequests
  obtain ⟨first, last, rfl, hfirst, hlast⟩ := List.append_eq_map_iff.mp hrequests
  obtain ⟨fragment, rfl, hfragment⟩ := List.map_eq_singleton_iff.mp hlast
  rw [Channel.receiveAll_append] at hread ⊢
  obtain ⟨hbefore, hthen⟩ := List.forall_mem_append.mp hread
  exact ⟨first, fragment, ⟨hfirst.symm, hbefore⟩, hfragment.symm, rfl,
    hthen _ List.mem_cons_self⟩

/-- Some of the moments bring some of the fragments. -/
theorem BringReports.earlier (h : BringReports channel ms fragments) {now : List Moment}
    (hpre : now <+: ms) : ∃ first, BringReports channel now first := by
  induction ms using List.reverseRecOn generalizing fragments with
  | nil => exact ⟨fragments, List.prefix_nil.mp hpre ▸ h⟩
  | append_singleton ms m ih =>
      rcases List.prefix_concat_iff.mp hpre with rfl | hpre
      · exact ⟨fragments, h⟩
      · obtain ⟨first, -, hfirst, -⟩ := h.last
        exact ih hfirst hpre

/-- What has come in a run has come in every longer one. -/
theorem Ready.later {now : List Moment} (h : start.Ready model now) (hpre : now <+: ms) :
    start.Ready model ms := by
  obtain ⟨later, rfl⟩ := hpre
  exact fun r hr => (h r hr).append later

/-- After a run those reports count as received that did before or that have come in it. -/
theorem Waits.run (h : start.Waits model channel received)
    (hbring : BringReports channel ms fragments) :
    ∃ now : Report → Bool, (start.run ms).1.Waits model (channel.receiveAll fragments).1 now ∧
      ∀ r, now r = true ↔ received r = true ∨ start.Happens ms fun c m => c.HearsReport m r := by
  induction ms using List.reverseRecOn generalizing fragments with
  | nil =>
      obtain rfl : fragments = [] := by simpa using hbring.requests
      exact ⟨received, h, fun r => by simp [Happens, SmartLock.Happens]⟩
  | append_singleton ms m ih =>
      obtain ⟨first, fragment, hfirst, hrequest, hafter, hreceived⟩ := hbring.last
      obtain ⟨old, hold, hcame⟩ := ih hfirst
      obtain ⟨⟨now, hnow, hadded⟩, -⟩ := hold.step hrequest hreceived
      rw [run_concat, hafter]
      refine ⟨now, hnow, fun r => ?_⟩
      rw [hadded r, hcame r, or_assoc]
      exact or_congr_right happens_concat.symm

/-- If somebody listens to the state all the time, the client tells that it is active once, when it
becomes so. -/
theorem Waits.toldStates_run (h : start.Waits model channel received)
    (hinactive : start.state ≠ .active) (hbring : BringReports channel ms fragments)
    (hobserved : ∀ m ∈ ms, m.host.observers.state = true) :
    toldStates (start.run ms).2 = if (start.run ms).1.state = .active then [.active] else [] := by
  induction ms using List.reverseRecOn generalizing fragments with
  | nil => exact (if_neg hinactive).symm
  | append_singleton ms m ih =>
      obtain ⟨first, fragment, hfirst, hrequest, -, hreceived⟩ := hbring.last
      obtain ⟨old, hold, -⟩ := h.run hfirst
      obtain ⟨-, htold⟩ := hold.step hrequest hreceived
      rw [run_concat, toldStates_append, htold,
        ih hfirst fun m' hm' => hobserved m' (List.mem_append_left [m] hm'),
        hobserved m (by simp)]
      by_cases hactive : (start.run ms).1.state = .active
      · simp [toldOfReadiness, hactive, hold.active_step hrequest hreceived hactive]
      · simp [toldOfReadiness, hactive]

/-- **When the client is ready.**  Take any client in a conversation of the third generation, with
any history, that hears an accepted login while it waits for it.  Nothing is put out then.  In every
run of reports that follows, such as any reports in plain, with any bodies, in any order and over
any number of fragments:

* the client is active exactly as soon as a status has come that is long enough for the model and,
  if the model has settings, a setting that is long enough, and until then it waits;
* once active it stays so;
* it tells that it is active at the moment when it becomes so, if somebody listens then, and tells
  no other state; so if somebody listens all the time, this is told exactly once;
* with a report that is too short for the model nothing changes but the channel, which has taken the
  fragment in. -/
theorem readiness_run {c : Client} {m : Moment} {d : Dialogue} {body : Bytes}
    (hos3 : d.osVersion = .os3) (hstate : c.state = .authenticating)
    (hhears : c.Hears m d .response .login body) (haccepts : d.accepts body = true) :
    let start := (c.step m.host m.request).client
    (c.step m.host m.request).outputs = [] ∧
    ∃ after, start.dialogue = some after ∧
    (∀ reports ms, ms.map Moment.request = (Report.inPlain reports).map Request.receive →
      BringReports after.channel ms (Report.inPlain reports)) ∧
    ∀ ms fragments, BringReports after.channel ms fragments →
      (∀ now, now <+: ms →
        ((start.run now).1.state = .active ↔ start.Ready d.model now) ∧
        (¬ start.Ready d.model now → (start.run now).1.state = .authenticating)) ∧
      (∀ now later, now <+: later → later <+: ms →
        (start.run now).1.state = .active → (start.run later).1.state = .active) ∧
      (∀ before m', before ++ [m'] <+: ms →
        let earlier := (start.run before).1
        let outcome := earlier.step m'.host m'.request
        toldStates outcome.outputs =
          toldOfReadiness m'.host.observers.state earlier.state outcome.client.state ∧
        ∀ (r : Report) d' body', earlier.Hears m' d' .publish r.item body' →
          body'.length < r.size d.model → earlier.OnlyTakesIn m') ∧
      ((∀ m' ∈ ms, m'.host.observers.state = true) →
        toldStates (start.run ms).2 =
          if (start.run ms).1.state = .active then [.active] else []) := by
  intro start
  obtain ⟨⟨channel, hwaits⟩, houtputs⟩ := step_of_acceptance hos3 hstate hhears haccepts
  obtain ⟨secret, hd⟩ := hwaits.dialogue
  refine ⟨houtputs, _, hd, fun reports ms hms => ⟨hms, channel.isOfReport_inPlain reports⟩,
    fun ms fragments hbring => ?_⟩
  have hready {now : List Moment} (hpre : now <+: ms) :
      (start.run now).1.state = .active ↔ start.Ready d.model now := by
    obtain ⟨first, hfirst⟩ := hbring.earlier hpre
    obtain ⟨received, hnow, hcame⟩ := hwaits.run hfirst
    refine hnow.active_iff.trans (forall_congr' fun r => (hcame r).trans ?_)
    rw [Bool.not_eq_true', ← Bool.not_eq_true, ← imp_iff_not_or]
  refine ⟨fun now hpre => ⟨hready hpre, fun hnot => ?_⟩,
    fun now later hlater hpre hactive => ?_, fun before m' hpre => ?_, ?_⟩
  · obtain ⟨first, hfirst⟩ := hbring.earlier hpre
    obtain ⟨received, hnow, -⟩ := hwaits.run hfirst
    exact hnow.authenticating_of_not fun hactive => hnot ((hready hpre).mp hactive)
  · exact (hready hpre).mpr (((hready (hlater.trans hpre)).mp hactive).later hlater)
  · obtain ⟨through, hthrough⟩ := hbring.earlier hpre
    obtain ⟨first, fragment, hfirst, hrequest, -, hreceived⟩ := hthrough.last
    obtain ⟨received, hnow, -⟩ := hwaits.run hfirst
    exact ⟨(hnow.step hrequest hreceived).2, fun r d' body' hhears => hnow.onlyTakesIn hhears⟩
  · have hinactive : start.state ≠ .active := fun hactive =>
      Bool.noConfusion (hwaits.active_iff.mp hactive .status)
    exact hwaits.toldStates_run hinactive hbring

end Runs

/-- A login in plain, after which a status comes that is too short, one that is long enough, and a
setting: then the client is active, and it tells so once. -/
theorem readiness_run_plainRun :
    let c := ((Client.new (RandomSource.ofSeed 3)).run (plainRun.take 3)).1
    let start := (c.step quietHost (.receive [3, 7, 2, 0, 0, 0, 0, 0])).client
    let report (fragment : Bytes) : Moment :=
      ⟨⟨fun _ _ => true, { state := true }⟩, .receive fragment⟩
    let ms := [report [3, 8, 81, 0], report [3, 8, 81, 0, 0, 0, 0, 0, 0, 0],
      report [3, 8, 80, 0, 0, 0, 0, 0, 0]]
    start.Ready .sesame5 ms ∧ (start.run ms).1.state = .active ∧
      toldStates (start.run ms).2 = [.active] := by
  intro c start report ms
  have haccepted : c.dialogue.map (fun d => (d.model, d.osVersion, d.accepts [0, 0, 0, 0, 0],
      (d.channel.receive [3, 7, 2, 0, 0, 0, 0, 0]).2)) =
        some (.sesame5, .os3, true, .complete [7, 2, 0, 0, 0, 0, 0] false) := by decide +kernel
  obtain ⟨d, hd, hdialogue⟩ := Option.map_eq_some_iff.mp haccepted
  simp only [Prod.mk.injEq] at hdialogue
  obtain ⟨hmodel, hos3, haccepts, hreceived⟩ := hdialogue
  have hstate : c.state = .authenticating := by decide +kernel
  obtain ⟨-, after, -, hplain, hruns⟩ :=
    readiness_run (m := ⟨quietHost, .receive [3, 7, 2, 0, 0, 0, 0, 0]⟩) hos3 hstate
      ⟨_, false, rfl, hd, hreceived⟩ haccepts
  have hbring := hplain
    [(.status, [0]), (.status, [0, 0, 0, 0, 0, 0, 0]), (.setting, [0, 0, 0, 0, 0, 0])] ms rfl
  obtain ⟨hready, -, -, htold⟩ := hruns ms _ hbring
  have hactive : (start.run ms).1.state = .active := by decide +kernel
  refine ⟨?_, hactive, ?_⟩
  · exact hmodel ▸ (hready ms List.prefix_rfl).1.mp hactive
  · rw [htold (by simp [ms, report]), if_pos hactive]

end Client

end SmartLock
