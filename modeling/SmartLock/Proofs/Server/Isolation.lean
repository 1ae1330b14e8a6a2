/-
# Sessions do not disturb one another

What a fragment leads to for its own session depends on the shared part of the server, on that
session and on what has been put out for it (`Record.reply`); and it changes nothing else, once the
server is registered (`Record.hear_eq_enter`).  Fragments of two sessions can therefore be exchanged
(`Record.hear_comm`), so that only the order within each session matters (`Record.isolation`).

The surroundings are such that the link of a session answers by what has been put out for that
session, and that commands are carried out by a function of what they say.
-/
import Mathlib.Logic.Function.Basic
import SmartLock.Proofs.Server.Commands
import SmartLock.Proofs.Server.Table

namespace SmartLock

/-! ## Interleavings -/

section Interleavings

variable {State Event Key : Type} {f : State → Event → State} {key : Event → Key}
  {P : State → Prop}

/-- A step can be taken before a list of steps with other keys. -/
theorem foldl_cons_of_comm (hP : ∀ s x, P s → P (f s x))
    (hcomm : ∀ s x y, P s → key x ≠ key y → f (f s x) y = f (f s y) x) {s : State} (hs : P s)
    {x : Event} {earlier : List Event} (hearlier : ∀ y ∈ earlier, key y ≠ key x) :
    f (earlier.foldl f s) x = earlier.foldl f (f s x) := by
  induction earlier generalizing s with
  | nil => rfl
  | cons y rest ih =>
      rw [List.foldl_cons, List.foldl_cons,
        ih (hP s y hs) fun z hz => hearlier z (List.mem_cons_of_mem y hz),
        hcomm s y x hs (hearlier y List.mem_cons_self)]

/-- If steps with different keys can be exchanged, lists of steps that are the same for each key
lead to the same state. -/
theorem foldl_eq_of_filter_eq [DecidableEq Key] (hP : ∀ s x, P s → P (f s x))
    (hcomm : ∀ s x y, P s → key x ≠ key y → f (f s x) y = f (f s y) x) {s : State} (hs : P s)
    {xs ys : List Event}
    (heq : ∀ k, xs.filter (fun x => key x = k) = ys.filter (fun y => key y = k)) :
    xs.foldl f s = ys.foldl f s := by
  induction xs generalizing s ys with
  | nil =>
      have hnil : ys = [] := by
        rw [List.eq_nil_iff_forall_not_mem]
        intro y hy
        have hmem : y ∈ ys.filter fun z => key z = key y :=
          List.mem_filter.mpr ⟨hy, decide_eq_true rfl⟩
        rw [← heq (key y)] at hmem
        cases hmem
      rw [hnil]
  | cons x rest ih =>
      -- The first step stands somewhere in the other list, after steps with other keys.
      have hfirst := heq (key x)
      rw [List.filter_cons_of_pos (by simp)] at hfirst
      obtain ⟨earlier, later, rfl, hother, -, hlater⟩ := List.filter_eq_cons_iff.mp hfirst.symm
      have hearlier : ∀ y ∈ earlier, key y ≠ key x := fun y hy => by simpa using hother y hy
      rw [List.foldl_append, List.foldl_cons, List.foldl_cons,
        foldl_cons_of_comm hP hcomm hs hearlier, ← List.foldl_append]
      apply ih (hP s x hs)
      intro k
      by_cases hk : key x = k
      · subst hk
        have hnone : earlier.filter (fun y => key y = key x) = [] :=
          List.filter_eq_nil_iff.mpr fun y hy => by simpa using hearlier y hy
        rw [List.filter_append, hnone, List.nil_append, hlater]
      · have hk' := heq k
        rw [List.filter_append, List.filter_cons_of_neg (by simpa using hk),
          List.filter_cons_of_neg (by simpa using hk)] at hk'
        rw [hk', List.filter_append]

end Interleavings

/-! ## Hosts that agree about a session -/

/-- Two hosts do the same for the session with a given number. -/
structure ServerHost.Agrees (first second : ServerHost) (id : SessionId) : Prop where
  takes : ∀ outputs, first.takes outputs id = second.takes outputs id
  registers : first.registers = second.registers
  handler : first.handler = second.handler

namespace Server

section Agreement

variable {first second : ServerHost} {id : SessionId} (h : first.Agrees second id)
include h

/-- A message is sent alike. -/
theorem notify_congr {t : Turn} (hid : t.session.id = id) (op : OpCode) (item : ItemCode)
    (body : Bytes) (encrypted : Bool) :
    t.notify first op item body encrypted = t.notify second op item body encrypted := by
  simp only [Turn.notify, hid, h.takes]

/-- A registration is dealt with alike. -/
theorem onRegistration_congr {t : Turn} (hid : t.session.id = id) (payload : Bytes) :
    onRegistration first t payload = onRegistration second t payload := by
  simp only [onRegistration, h.registers]
  split
  · rfl
  split
  · rfl
  split
  · rfl
  split
  · rfl
  · rfl
  · rename_i secret key hsecret hkey
    rw [notify_congr h]
    exact hid

/-- A login is dealt with alike. -/
theorem onLogin_congr {t : Turn} (hid : t.session.id = id) (payload : Bytes) :
    onLogin first t payload = onLogin second t payload := by
  have hrunning : ((t.notify second .response .login (loginBody t.station) true).setState
      .running).session.id = id := (Session.id_setState ..).trans hid
  simp only [onLogin, notify_congr h hid]
  split
  · rfl
  split
  · rfl
  split
  · rfl
  · rcases result_notify second t .response .login (loginBody t.station) true with
      hok | ⟨error, herror⟩
    · rw [andThen_of_ok hok, andThen_of_ok hok, notify_congr h hrunning]
      rw [notify_congr h]
      exact hrunning
    · rw [andThen_of_error herror, andThen_of_error herror]

/-- A command is dealt with alike. -/
theorem onCommand_congr {t : Turn} (hid : t.session.id = id) (item : ItemCode) (payload : Bytes) :
    onCommand first t item payload = onCommand second t item payload := by
  unfold onCommand
  split
  · rfl
  split
  · rfl
  split
  · rfl
  dsimp only
  rw [h.handler]
  split
  · rw [notify_congr h]
    exact hid
  · rw [notify_congr h hid]

/-- A whole message is dealt with alike. -/
theorem onMessage_congr {t : Turn} (hid : t.session.id = id) (message : Bytes) :
    onMessage first t message = onMessage second t message := by
  cases message with
  | nil => rfl
  | cons code payload =>
      simp only [onMessage, onRegistration_congr h hid, onLogin_congr h hid, onCommand_congr h hid]

/-- A fragment is dealt with alike. -/
theorem onFragment_congr (station : Station) {session : Session} (hid : session.id = id)
    (fragment : Bytes) :
    onFragment first station session fragment = onFragment second station session fragment := by
  rw [onFragment, onFragment]
  rcases session.channel.receive fragment with ⟨channel, received⟩
  cases received with
  | dropped => rfl
  | requireMore => rfl
  | skipping forged => cases forged <;> rfl
  | complete message authenticated => exact onMessage_congr h hid message

end Agreement

/-- Two sessions with different numbers can be replaced in either order. -/
theorem replaceIn_comm {first second : Session} (h : first.id ≠ second.id)
    (slots : List (Option Session)) :
    replaceIn (replaceIn slots first) second = replaceIn (replaceIn slots second) first := by
  rw [replaceIn, replaceIn, replaceIn, replaceIn, List.map_map, List.map_map]
  apply List.map_congr_left
  intro slot _
  cases slot with
  | none => rfl
  | some old =>
      by_cases hfirst : old.id = first.id
      · simp [hfirst, h]
      · by_cases hsecond : old.id = second.id
        · simp [hsecond, h.symm]
        · simp [hfirst, hsecond]

/-! ## Records -/

/-- What is around a server for some time. -/
structure Surroundings where
  /-- Given what has been put out for a session so far, does its link take a fragment? -/
  link : SessionId → List ServerOutput → Bytes → Bool
  /-- Whether registrations are welcome. -/
  registers : Bool := false
  /-- What carries commands out, if anything does. -/
  handler : Option CommandHandler := none

/-- The surroundings at a moment, given what has been put out for each session before. -/
def Surroundings.host (e : Surroundings) (past : SessionId → List ServerOutput) : ServerHost where
  takes := fun outputs id fragment => e.link id (past id ++ ownOutputs id outputs) fragment
  registers := e.registers
  handler := e.handler

/-- A server, and for each session what has been put out for it and how its fragments have fared. -/
@[ext] structure Record where
  server : Server
  outputs : SessionId → List ServerOutput
  results : SessionId → List (Except ServerError Unit)

/-- What a fragment leads to for its session. -/
structure Reply where
  session : Option Session
  outputs : List ServerOutput
  result : Except ServerError Unit

/-- The session that comes of a fragment has a certain number, and the outputs are about it. -/
structure Reply.IsAbout (x : Reply) (id : SessionId) : Prop where
  session : ∀ session, x.session = some session → session.id = id
  outputs : ∀ output ∈ x.outputs, output.session = id

namespace Record

/-- The record after one more fragment. -/
def hear (e : Surroundings) (r : Record) (id : SessionId) (fragment : Bytes) : Record :=
  let outcome := r.server.step (e.host r.outputs) (.receive id fragment)
  { server := outcome.server
    outputs := fun other => r.outputs other ++ ownOutputs other outcome.outputs
    results := Function.update r.results id (r.results id ++ [outcome.result]) }

/-- The record after fragments of several sessions. -/
def hearAll (e : Surroundings) (r : Record) (fragments : List (SessionId × Bytes)) : Record :=
  fragments.foldl (fun r x => r.hear e x.1 x.2) r

/-- What a fragment leads to for its session, given the record. -/
def reply (e : Surroundings) (r : Record) (id : SessionId) (fragment : Bytes) : Reply :=
  match r.server.session? id with
  | none => ⟨none, [], .error (.unknownSession id)⟩
  | some session =>
      let t := onFragment (e.host r.outputs) r.server.station session fragment
      ⟨some t.session, t.outputs, t.result⟩

/-- The record with what a fragment has led to for its session. -/
def enter (r : Record) (id : SessionId) (x : Reply) : Record where
  server :=
    ⟨r.server.station, x.session.elim r.server.slots (replaceIn r.server.slots)⟩
  outputs := Function.update r.outputs id (r.outputs id ++ x.outputs)
  results := Function.update r.results id (r.results id ++ [x.result])

section Steps

variable (e : Surroundings) {r : Record} {id other : SessionId}

/-- What a fragment leads to is about its session. -/
theorem isAbout_reply (id : SessionId) (fragment : Bytes) :
    (r.reply e id fragment).IsAbout id := by
  unfold reply
  cases hold : r.server.session? id with
  | none => exact ⟨nofun, nofun⟩
  | some old =>
      obtain ⟨-, hid⟩ := Server.mem_of_session? hold
      refine ⟨fun session hsession => ?_, fun output hmem => ?_⟩
      · obtain rfl := Option.some.inj hsession
        rw [id_onFragment, hid]
      · rw [(reaction_onFragment hmem).session, hid]

/-- On a registered server a fragment leads to nothing but the reply for its session. -/
theorem step_eq_reply (hregistered : r.server.station.registered = true) (id : SessionId)
    (fragment : Bytes) :
    r.server.step (e.host r.outputs) (.receive id fragment) =
      ⟨(r.enter id (r.reply e id fragment)).server, (r.reply e id fragment).outputs,
        (r.reply e id fragment).result⟩ := by
  rw [step, receive, enter, reply]
  cases r.server.session? id with
  | none => rfl
  | some old =>
      dsimp only
      rw [station_onFragment hregistered]
      rfl

/-- On a registered server a fragment changes nothing but what concerns its session. -/
theorem hear_eq_enter (hregistered : r.server.station.registered = true) (id : SessionId)
    (fragment : Bytes) : r.hear e id fragment = r.enter id (r.reply e id fragment) := by
  -- Sorting the outputs by session gives all of them to one session.
  have hown := (r.isAbout_reply e id fragment).outputs
  rw [hear, step_eq_reply e hregistered]
  ext1
  · rfl
  · funext other
    by_cases hother : other = id
    · subst hother
      have hall : ownOutputs other (r.reply e other fragment).outputs =
          (r.reply e other fragment).outputs :=
        List.filter_eq_self.mpr fun output hmem => decide_eq_true (hown output hmem)
      simp only [enter, hall, Function.update_self]
    · have hnone : ownOutputs other (r.reply e id fragment).outputs = [] :=
        List.filter_eq_nil_iff.mpr fun output hmem => by
          simpa [hown output hmem] using Ne.symm hother
      simp only [enter, hnone, List.append_nil, Function.update_of_ne hother]
  · rfl

/-- What a fragment leads to for one session does not depend on replies to others. -/
theorem reply_enter_of_ne {x : Reply} (hx : x.IsAbout id) (hne : id ≠ other) (fragment : Bytes) :
    (r.enter id x).reply e other fragment = r.reply e other fragment := by
  have hsession : (r.enter id x).server.session? other = r.server.session? other := by
    cases hsession : x.session with
    | none => simp only [enter, hsession, Option.elim_none]
    | some session =>
        simp only [enter, hsession, Option.elim_some]
        exact session?_replaceIn_of_ne _ _ (hx.session session hsession ▸ hne)
  have hagrees : (e.host (r.enter id x).outputs).Agrees (e.host r.outputs) other := by
    refine ⟨fun outputs => ?_, rfl, rfl⟩
    simp only [Surroundings.host, enter, Function.update_of_ne hne.symm]
  unfold reply
  rw [hsession]
  cases hold : r.server.session? other with
  | none => rfl
  | some old =>
      dsimp only
      rw [onFragment_congr hagrees _ (Server.mem_of_session? hold).2]
      rfl

/-- Replies for different sessions can be entered in either order. -/
theorem enter_comm {x y : Reply} (hx : x.IsAbout id) (hy : y.IsAbout other) (hne : id ≠ other) :
    (r.enter id x).enter other y = (r.enter other y).enter id x := by
  ext1
  · simp only [enter]
    congr 1
    cases hfirst : x.session with
    | none => rfl
    | some first =>
        cases hsecond : y.session with
        | none => rfl
        | some second =>
            have hids : first.id ≠ second.id := by
              rwa [hx.session first hfirst, hy.session second hsecond]
            exact replaceIn_comm hids _
  · simp only [enter, Function.update_of_ne hne, Function.update_of_ne hne.symm]
    exact Function.update_comm hne ..
  · simp only [enter, Function.update_of_ne hne, Function.update_of_ne hne.symm]
    exact Function.update_comm hne ..

/-- Fragments of two sessions can be exchanged. -/
theorem hear_comm (hregistered : r.server.station.registered = true) (hne : id ≠ other)
    (first second : Bytes) :
    (r.hear e id first).hear e other second = (r.hear e other second).hear e id first := by
  -- Each of the four steps is the entry of a reply, and no reply depends on the other's entry.
  have hstill (id : SessionId) (x : Reply) : (r.enter id x).server.station.registered = true :=
    hregistered
  have hfirst := r.isAbout_reply e id first
  have hsecond := r.isAbout_reply e other second
  rw [hear_eq_enter e hregistered id, hear_eq_enter e hregistered other,
    hear_eq_enter e (hstill ..), hear_eq_enter e (hstill ..), reply_enter_of_ne e hfirst hne,
    reply_enter_of_ne e hsecond hne.symm]
  exact enter_comm hfirst hsecond hne

/-- A reply does not touch the slots of other sessions. -/
theorem slots_enter {x : Reply} (hx : x.IsAbout id) {i : Nat}
    (hother : ∀ session, r.server.slots[i]? = some (some session) → session.id ≠ id) :
    (r.enter id x).server.slots[i]? = r.server.slots[i]? := by
  cases hsession : x.session with
  | none => simp only [enter, hsession, Option.elim_none]
  | some session =>
      simp only [enter, hsession, Option.elim_some, replaceIn, List.getElem?_map]
      cases hslot : r.server.slots[i]? with
      | none => rfl
      | some slot =>
          cases slot with
          | none => rfl
          | some old =>
              have hne : old.id ≠ session.id := hx.session session hsession ▸ hother old hslot
              simp [hne]

/-- The order of the fragments matters only within each session. -/
theorem hearAll_eq_of_filter_eq (hregistered : r.server.station.registered = true)
    {xs ys : List (SessionId × Bytes)}
    (heq : ∀ id, xs.filter (fun x => x.1 = id) = ys.filter (fun y => y.1 = id)) :
    r.hearAll e xs = r.hearAll e ys := by
  refine foldl_eq_of_filter_eq (P := fun r => r.server.station.registered = true) ?_ ?_
    hregistered heq
  · intro r x hr
    rw [hear_eq_enter e hr]
    exact hr
  · exact fun r x y hr hne => hear_comm e hr hne x.2 y.2

end Steps

/-- **Sessions are isolated.**  On a registered server, whose links answer by what has been put out
for their own session: fragments of two sessions can be exchanged, and the server, all outputs and
all results are the same; a fragment leaves the shared part, the slots of other sessions and all
that has been put out for them as they are; and so fragments of any number of sessions lead to the
same, however they are interleaved. -/
theorem isolation (e : Surroundings) {r : Record}
    (hregistered : r.server.station.registered = true) :
    (∀ id other first second, id ≠ other →
      (r.hear e id first).hear e other second = (r.hear e other second).hear e id first) ∧
    (∀ id fragment, (r.hear e id fragment).server.station = r.server.station ∧
      (∀ i : Nat, (∀ session, r.server.slots[i]? = some (some session) → session.id ≠ id) →
        (r.hear e id fragment).server.slots[i]? = r.server.slots[i]?) ∧
      ∀ other, other ≠ id → (r.hear e id fragment).outputs other = r.outputs other ∧
        (r.hear e id fragment).results other = r.results other) ∧
    ∀ xs ys : List (SessionId × Bytes),
      (∀ id, xs.filter (fun x => x.1 = id) = ys.filter (fun y => y.1 = id)) →
      r.hearAll e xs = r.hearAll e ys := by
  refine ⟨fun id other first second hne => hear_comm e hregistered hne first second,
    fun id fragment => ?_, fun xs ys heq => hearAll_eq_of_filter_eq e hregistered heq⟩
  rw [hear_eq_enter e hregistered]
  refine ⟨rfl, fun i hother => slots_enter (r.isAbout_reply e id fragment) hother,
    fun other hother => ?_⟩
  exact ⟨Function.update_of_ne hother .., Function.update_of_ne hother ..⟩

/-- Two centrals have subscribed to a registered server. -/
def twoCentrals : Record where
  server := ((Server.new (RandomSource.ofSeed 3) 2).run
    [⟨openHost, .begin .sesame5 Uuid.nil⟩,
      ⟨openHost, .setRegistered (Octets.zero 16)⟩,
      ⟨openHost, .subscribed 1 0⟩, ⟨openHost, .subscribed 2 0⟩]).1
  outputs := fun _ => []
  results := fun _ => []

/-- Links that take a few fragments each, and somebody who carries commands out. -/
def tiringLinks : Surroundings where
  link := fun id past _ => decide (past.length < id.toNat)
  handler := some fun _ _ _ _ => .success

/-- A login of the first central with its code, and a guess of the second. -/
def crossing : List (SessionId × Bytes) := [(1, [3, 2, 57, 221, 140, 99]), (2, [3, 2, 0, 0, 0, 0])]

/-- It does not matter which of the two comes first. -/
theorem isolation_twoCentrals :
    twoCentrals.server.station.registered = true ∧
      (∀ id, crossing.filter (fun x => x.1 = id) = crossing.reverse.filter (fun y => y.1 = id)) ∧
      twoCentrals.hearAll tiringLinks crossing =
        twoCentrals.hearAll tiringLinks crossing.reverse := by
  have hregistered : twoCentrals.server.station.registered = true := by decide +kernel
  have heq (id : SessionId) :
      crossing.filter (fun x => x.1 = id) = crossing.reverse.filter (fun y => y.1 = id) := by
    by_cases hfirst : id = 1
    · rw [hfirst]
      rfl
    · simp [crossing, List.filter_cons, Ne.symm hfirst]
  exact ⟨hregistered, heq, (isolation tiringLinks hregistered).2.2 _ _ heq⟩

end Record

end Server

end SmartLock
