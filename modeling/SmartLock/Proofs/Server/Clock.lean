/-
# The clock of a server

A server is told the time by its surroundings, in milliseconds in a word that begins again after 49
days (`TimedMoment`).  From the moment at which its clock has been set it counts the seconds by the
difference of two such words, so that of the time that has gone by it knows the rest modulo 2 ^ 32
milliseconds only (`Server.clock_run`).

Up to the first 2 ^ 32 milliseconds that is the time itself.  From then on the clock is wrong, and
it is right again only each thousandth time the word has come round, when the words of the seconds
agree by chance (`Server.currentTime_run`).
-/
import Mathlib.Algebra.Group.Nat.Defs
import SmartLock.Proofs.Link.ShortMessages
import SmartLock.Proofs.Link.Written
import SmartLock.Proofs.Server.Commands

namespace SmartLock

/-! ## Real time -/

namespace Server

/-- The time in milliseconds that a request tells. -/
def Request.time? : Request → Option UInt32
  | .setCurrentTime _ now => some now
  | .subscribed _ now => some now
  | .update now => some now
  | _ => none

/-- The seconds to which a request sets the clock, and the time in milliseconds at which it does. -/
def Request.calibration? : Request → Option (UInt32 × UInt32)
  | .setCurrentTime seconds now => some (seconds, now)
  | _ => none

/-- The time that a request allows for a login. -/
def Request.timeout? : Request → Option UInt32
  | .setLoginTimeout milliseconds => some milliseconds
  | _ => none

/-- A moment at a real time in milliseconds.  The time that its request tells is that one, in a
word. -/
structure TimedMoment extends Moment where
  time : Nat
  tells : ∀ now ∈ request.time?, now = UInt32.ofNat time

/-- The time is checked at a real time. -/
def checkAt (host : ServerHost) (time : Nat) : TimedMoment where
  host := host
  request := .update (UInt32.ofNat time)
  time := time
  tells := by simp [Request.time?]

/-- A central subscribes at a real time. -/
def subscribeAt (host : ServerHost) (id : SessionId) (time : Nat) : TimedMoment where
  host := host
  request := .subscribed id (UInt32.ofNat time)
  time := time
  tells := by simp [Request.time?]

/-- The moments of a run, without their times. -/
def moments (ms : List TimedMoment) : List Moment := ms.map TimedMoment.toMoment

/-- The moments of a run in two parts. -/
@[simp] theorem moments_append (first second : List TimedMoment) :
    moments (first ++ second) = moments first ++ moments second := List.map_append

/-- The times that a server has been told in a run, in order. -/
def timesTold (ms : List TimedMoment) : List Nat :=
  ms.filterMap fun m => m.request.time?.map fun _ => m.time

/-- The last time that a server has been told, if it has been told `start` before the run. -/
def lastTime (start : Nat) (ms : List TimedMoment) : Nat := (timesTold ms).getLast?.getD start

/-- One more moment counts if it tells a time. -/
theorem lastTime_concat (start : Nat) (ms : List TimedMoment) (m : TimedMoment) :
    lastTime start (ms ++ [m]) =
      if m.request.time?.isSome then m.time else lastTime start ms := by
  rw [lastTime, timesTold, List.filterMap_append]
  cases htime : m.request.time? with
  | none => simp [lastTime, timesTold, htime]
  | some now => simp [htime]

/-- What has been told is the time before the run or some time of the run. -/
theorem lastTime_mem (start : Nat) (ms : List TimedMoment) :
    lastTime start ms ∈ start :: ms.map TimedMoment.time := by
  induction ms using List.reverseRecOn with
  | nil => simp [lastTime, timesTold]
  | append_singleton ms m ih =>
      rw [lastTime_concat]
      split
      · simp
      · rw [List.map_append, ← List.cons_append]
        exact List.mem_append_left _ ih

/-- Time does not go back, from `start` on. -/
def InOrder (start : Nat) (ms : List TimedMoment) : Prop :=
  (start :: ms.map TimedMoment.time).Pairwise (· ≤ ·)

instance (start : Nat) (ms : List TimedMoment) : Decidable (InOrder start ms) := by
  unfold InOrder
  infer_instance

/-- The first moments of a run in order are in order. -/
theorem InOrder.of_append {start : Nat} {before after : List TimedMoment}
    (h : InOrder start (before ++ after)) : InOrder start before := by
  rw [InOrder, List.map_append, ← List.cons_append] at h
  exact (List.pairwise_append.mp h).1

/-- The last time that has been told is not before the start. -/
theorem InOrder.le_lastTime {start : Nat} {ms : List TimedMoment} (h : InOrder start ms) :
    start ≤ lastTime start ms := by
  rcases List.mem_cons.mp (lastTime_mem start ms) with heq | hmem
  · exact Nat.le_of_eq heq.symm
  · exact (List.pairwise_cons.mp h).1 _ hmem

/-- The last time that has been told does not go back, either. -/
theorem InOrder.lastTime_le {start : Nat} {before after : List TimedMoment}
    (h : InOrder start (before ++ after)) :
    lastTime start before ≤ lastTime start (before ++ after) := by
  induction after using List.reverseRecOn with
  | nil => simp
  | append_singleton after m ih =>
      rw [← List.append_assoc] at h ⊢
      rw [lastTime_concat]
      split
      · have hbefore := ih h.of_append
        rw [InOrder, List.map_append, ← List.cons_append] at h
        refine Nat.le_trans hbefore ?_
        exact (List.pairwise_append.mp h).2.2 _ (lastTime_mem start _) m.time (by simp)
      · exact ih h.of_append

end Server

/-! ## Words of time -/

/-- The difference of two times in words is the time between them, modulo the size of the word. -/
theorem toNat_ofNat_sub_ofNat {start now : Nat} (h : start ≤ now) :
    (UInt32.ofNat now - UInt32.ofNat start).toNat = (now - start) % 2 ^ 32 := by
  rw [UInt32.toNat_sub, UInt32.toNat_ofNat', UInt32.toNat_ofNat']
  omega

namespace Server

/-! ## What a step does to the clock -/

/-- The time, the clock and the time that is allowed for a login are those that have been told or
set last. -/
theorem times_step (host : ServerHost) (s : Server) (request : Request) :
    (s.step host request).server.station.now = request.time?.getD s.station.now ∧
      (s.step host request).server.station.clock = request.calibration?.or s.station.clock ∧
      (s.step host request).server.station.loginTimeout =
        request.timeout?.getD s.station.loginTimeout := by
  cases request with
  | begin model uuid =>
      simp only [step, begin, modifyStation]
      split <;> exact ⟨rfl, rfl, rfl⟩
  | loadKey key =>
      simp only [step, loadKey]
      cases PrivateKey.ofBytes? key <;> exact ⟨rfl, rfl, rfl⟩
  | subscribed id now =>
      rcases subscribed_cases host s id now with ⟨error, -, hstep⟩ | ⟨-, -, -, hstep⟩
      · rw [hstep]
        exact ⟨rfl, rfl, rfl⟩
      · rw [hstep, opened, station_greet]
        exact ⟨rfl, rfl, rfl⟩
  | receive id fragment =>
      simp only [step, receive]
      cases s.session? id with
      | none => exact ⟨rfl, rfl, rfl⟩
      | some old =>
          obtain ⟨registered, secret, heq⟩ := exists_station_onFragment host s.station old fragment
          dsimp only
          rw [heq]
          exact ⟨rfl, rfl, rfl⟩
  | notify id notice =>
      cases id with
      | none => exact ⟨rfl, rfl, rfl⟩
      | some id =>
          simp only [step, notifyOne]
          cases s.session? id <;> exact ⟨rfl, rfl, rfl⟩
  | generateKeys => exact ⟨rfl, rfl, rfl⟩
  | setRegistered secret => exact ⟨rfl, rfl, rfl⟩
  | setMechStatus status => exact ⟨rfl, rfl, rfl⟩
  | setMechSetting setting => exact ⟨rfl, rfl, rfl⟩
  | setLoginTimeout milliseconds => exact ⟨rfl, rfl, rfl⟩
  | setCurrentTime seconds now => exact ⟨rfl, rfl, rfl⟩
  | disconnected id => exact ⟨rfl, rfl, rfl⟩
  | update now => exact ⟨rfl, rfl, rfl⟩

/-! ## Runs after the clock has been set -/

section Runs

variable {s : Server} {seconds : UInt32} {start : Nat} {ms : List TimedMoment}

/-- The server after its clock has been set at a real time, and after a run. -/
def clockRun (s : Server) (seconds : UInt32) (start : Nat) (ms : List TimedMoment) : Server :=
  ((s.setCurrentTime seconds (UInt32.ofNat start)).run (moments ms)).1

/-- As long as the clock is not set again, it stays as it has been set, and the time is the last one
that has been told. -/
theorem clock_run (s : Server) (seconds : UInt32) (start : Nat)
    (hms : ∀ m ∈ ms, m.request.calibration? = none) :
    (s.clockRun seconds start ms).station.clock = some (seconds, UInt32.ofNat start) ∧
      (s.clockRun seconds start ms).station.now = UInt32.ofNat (lastTime start ms) := by
  induction ms using List.reverseRecOn with
  | nil => exact ⟨rfl, rfl⟩
  | append_singleton ms m ih =>
      obtain ⟨hclock, hnow⟩ := ih fun m' hm => hms m' (List.mem_append_left _ hm)
      obtain ⟨hnow', hclock', -⟩ := times_step m.host (s.clockRun seconds start ms) m.request
      rw [hms m (by simp), Option.none_or] at hclock'
      rw [clockRun, moments_append, run_append]
      refine ⟨hclock'.trans hclock, hnow'.trans ?_⟩
      rw [lastTime_concat]
      cases htime : m.request.time? with
      | none => exact hnow
      | some now => exact m.tells now htime

/-- The time that has gone by since the clock was set, as far as the server has been told. -/
def elapsed (start : Nat) (ms : List TimedMoment) : Nat := lastTime start ms - start

/-- The clock counts the seconds of what is left of that time modulo 2 ^ 32 milliseconds. -/
theorem currentTime_clockRun (s : Server) (seconds : UInt32)
    (hms : ∀ m ∈ ms, m.request.calibration? = none) (horder : InOrder start ms) :
    (s.clockRun seconds start ms).station.currentTime.toNat =
      (seconds.toNat + elapsed start ms % 2 ^ 32 / 1000) % 2 ^ 32 := by
  obtain ⟨hclock, hnow⟩ := clock_run s seconds start hms
  have hdiff := toNat_ofNat_sub_ofNat horder.le_lastTime
  rw [Station.currentTime, hclock, hnow]
  dsimp only
  rw [UInt32.toNat_add, UInt32.toNat_div, hdiff]
  rfl

end Runs

/-! ## The time in the answer to a login -/

/-- The fragment of this moment completes a login with the right code. -/
def HearsRightCode (s : Server) (m : Moment) (id : SessionId) : Prop :=
  ∃ fragment session code authenticated, m.request = .receive id fragment ∧
    s.session? id = some session ∧
    (session.channel.receive fragment).2 = .complete (ItemCode.login.code :: code) authenticated ∧
    session.channel.cipher.verifyCode code = true

/-- The message that a login is accepted, at a time in seconds. -/
def loginAnswer (seconds : UInt32) : Bytes :=
  OpCode.response.code :: ItemCode.login.code :: ResultCode.success.code :: writeUInt32 seconds

/-- The first that is put out at this moment is the fragment by which the central with a given number
is told that its login is accepted, at a time in seconds: the message is encrypted under the key of
the session and its nonce for sending. -/
def TellsTime (s : Server) (m : Moment) (id : SessionId) (seconds : UInt32) : Prop :=
  ∃ session key packet rest, s.session? id = some session ∧
    session.channel.cipher.key = some key ∧
    Ccm.encrypt? key session.channel.cipher.sendNonce Cipher.associated (loginAnswer seconds) =
      some packet ∧
    let fragment := Fragment.whole true packet
    (s.step m.host m.request).outputs = .write id fragment (m.host.takes [] id fragment) :: rest

/-- What is offered of a login's answer is a single fragment. -/
theorem exists_offer_loginAnswer {c : Channel} {key : Key} (hkey : c.cipher.key = some key)
    (seconds : UInt32) : ∃ packet,
      Ccm.encrypt? key c.cipher.sendNonce Cipher.associated (loginAnswer seconds) = some packet ∧
      ∀ writer, (c.send writer (loginAnswer seconds) true).offer =
        Fragment.offer writer [Fragment.whole true packet] := by
  have hsize : (loginAnswer seconds).length = 7 := rfl
  have hfits : (loginAnswer seconds).length ≤ Ccm.maxLength := by rw [hsize]; decide
  obtain ⟨packet, hpacket⟩ :=
    Cipher.exists_encrypt? key c.cipher.sendNonce Cipher.associated hfits
  have hlength : packet.length = 11 := by rw [Ccm.length_of_encrypt? hpacket, hsize]; rfl
  have hsplit : Fragment.split true packet = [Fragment.whole true packet] :=
    Fragment.split_of_length_le true (List.ne_nil_of_length_eq_add_one hlength)
      (by rw [hlength]; decide)
  refine ⟨packet, hpacket, fun writer => ?_⟩
  rw [Channel.offer_send_encrypted hkey, hpacket, Fragment.offerSealed, hsplit]

/-- A single fragment is taken or refused. -/
theorem writes_offer_singleton (id : SessionId) (writer : Fragment.Writer) (fragment : Bytes) :
    Turn.writes id (Fragment.offer writer [fragment]) =
      [.write id fragment (writer [] fragment)] := by
  cases htaken : writer [] fragment <;>
    simp [Turn.writes, Fragment.offer, Fragment.offerAfter, htaken]

/-- A login with the right code is answered first of all. -/
theorem outputs_onLogin (host : ServerHost) {t : Turn} {code : Bytes}
    (hcode : t.session.channel.cipher.verifyCode code = true) :
    ∃ rest, (onLogin host t code).outputs =
      (t.notify host .response .login (loginBody t.station) true).outputs ++ rest := by
  have hhas := Cipher.hasKey_of_verifyCode hcode
  have hlength : code.length = Cipher.codeSize := by
    obtain ⟨key, hkey⟩ := Option.isSome_iff_exists.mp hhas
    rw [Cipher.verifyCode, hkey] at hcode
    rw [of_decide_eq_true hcode, List.length_take, key.length_toBytes]
    rfl
  rw [onLogin, if_neg (not_not_intro hlength), if_neg (by simp [hhas]), if_neg (by simp [hcode])]
  rcases result_notify host t .response .login (loginBody t.station) true with
    hok | ⟨error, herror⟩
  · rw [andThen_of_ok hok]
    simp only [Turn.notify, Turn.setState, List.append_assoc]
    exact ⟨_, rfl⟩
  · rw [andThen_of_error herror]
    exact ⟨[], (List.append_nil _).symm⟩

/-- It tells the time of the server. -/
theorem tellsTime_of_hearsRightCode {s : Server} {m : Moment} {id : SessionId}
    (h : s.HearsRightCode m id) : s.TellsTime m id s.station.currentTime := by
  obtain ⟨fragment, session, code, authenticated, hrequest, hsession, hreceived, hcode⟩ := h
  obtain ⟨-, rfl⟩ := mem_of_session? hsession
  obtain ⟨key, hkey⟩ := Option.isSome_iff_exists.mp (Cipher.hasKey_of_verifyCode hcode)
  -- The fragment leaves the key and the nonce for sending as they are.
  have hkept : (session.channel.receive fragment).1.cipher.key = some key := by
    rwa [Channel.key_receive]
  have hright : (session.channel.receive fragment).1.cipher.verifyCode code = true := by
    rwa [Cipher.verifyCode, Channel.key_receive]
  obtain ⟨packet, hpacket, hoffer⟩ := exists_offer_loginAnswer hkept s.station.currentTime
  rw [Channel.sendNonce_receive] at hpacket
  obtain ⟨rest, hrest⟩ := outputs_onLogin m.host (t :=
    { station := s.station
      session := { session with channel := (session.channel.receive fragment).1 } }) hright
  refine ⟨session, key, packet, rest, hsession, hkey, hpacket, ?_⟩
  rw [hrequest, receive_of_session? hsession, onFragment_login hreceived]
  refine hrest.trans ?_
  simp only [Turn.notify, loginBody, List.nil_append]
  rw [← loginAnswer, hoffer, writes_offer_singleton]
  rfl

/-! ## The time that is told -/

/-- **What time a server tells.**  Its clock is set, at a real time in milliseconds, and not again.
From then on it shows, in a word, the seconds to which it was set and those in the rest modulo
2 ^ 32 of the milliseconds that have gone by.  These are the seconds that have gone by exactly if
the word of the milliseconds has come round a multiple of a thousand times.  A login with the right
code is answered with the time that the clock shows.  In the first 2 ^ 32 milliseconds the clock
does not go back, unless its word comes round. -/
theorem currentTime_run (s : Server) (seconds : UInt32) {start : Nat} {ms : List TimedMoment}
    (hms : ∀ m ∈ ms, m.request.calibration? = none) (horder : InOrder start ms) :
    (∀ before after, ms = before ++ after →
      let reached := s.clockRun seconds start before
      reached.station.currentTime.toNat =
          (seconds.toNat + elapsed start before % 2 ^ 32 / 1000) % 2 ^ 32 ∧
        (reached.station.currentTime.toNat =
            (seconds.toNat + elapsed start before / 1000) % 2 ^ 32 ↔
          elapsed start before / 2 ^ 32 % 1000 = 0) ∧
        ∀ m id, reached.HearsRightCode m id → reached.TellsTime m id reached.station.currentTime) ∧
    ∀ before between after, ms = before ++ between ++ after →
      elapsed start (before ++ between) < 2 ^ 32 →
      seconds.toNat + elapsed start (before ++ between) / 1000 < 2 ^ 32 →
      (s.clockRun seconds start before).station.currentTime.toNat ≤
        (s.clockRun seconds start (before ++ between)).station.currentTime.toNat := by
  have htime (before after : List TimedMoment) (heq : ms = before ++ after) :
      (s.clockRun seconds start before).station.currentTime.toNat =
        (seconds.toNat + elapsed start before % 2 ^ 32 / 1000) % 2 ^ 32 := by
    subst heq
    exact currentTime_clockRun s seconds (fun m hm => hms m (List.mem_append_left _ hm))
      horder.of_append
  constructor
  · intro before after heq reached
    refine ⟨htime before after heq, ?_, fun m id => tellsTime_of_hearsRightCode⟩
    -- A thousand times 2 ^ 32 milliseconds are 2 ^ 32 seconds, and nothing less is a multiple.
    rw [htime before after heq]
    omega
  · intro before between after heq hwithin hword
    have hle : elapsed start before ≤ elapsed start (before ++ between) := by
      rw [heq] at horder
      exact Nat.sub_le_sub_right horder.of_append.lastTime_le start
    rw [htime before (between ++ after) (by rw [heq, List.append_assoc]),
      htime (before ++ between) after heq]
    omega

/-- The time is checked twice while the word of the milliseconds comes round. -/
def roundTrip : List TimedMoment :=
  [checkAt openHost 0x80000000, checkAt openHost 0x100000000]

/-- After that the clock is back where it was. -/
theorem currentTime_run_roundTrip :
    ((∀ m ∈ roundTrip, m.request.calibration? = none) ∧ InOrder 0 roundTrip) ∧
      elapsed 0 roundTrip / 1000 = 4294967 ∧
      ((Server.new (RandomSource.ofSeed 3) 2).clockRun 0 0 roundTrip).station.currentTime.toNat
        = 0 := by
  have hms : ∀ m ∈ roundTrip, m.request.calibration? = none := by decide
  have horder : InOrder 0 roundTrip := by decide
  obtain ⟨htime, -⟩ := currentTime_run (Server.new (RandomSource.ofSeed 3) 2) 0 hms horder
  refine ⟨⟨hms, horder⟩, by decide, ?_⟩
  rw [(htime roundTrip [] (List.append_nil _).symm).1]
  decide

/-- Even if a server is told the time often enough, its clock does not always show the seconds that
have gone by. -/
theorem not_forall_currentTime_elapsed :
    ¬ ∀ (s : Server) (seconds : UInt32) (start : Nat) (ms : List TimedMoment),
      (∀ m ∈ ms, m.request.calibration? = none ∧ m.request.time?.isSome = true) →
      (start :: ms.map TimedMoment.time).IsChain (fun a b => a ≤ b ∧ b < a + 2 ^ 32) →
      (s.clockRun seconds start ms).station.currentTime.toNat =
        (seconds.toNat + elapsed start ms / 1000) % 2 ^ 32 := by
  intro h
  have htime := h (Server.new (RandomSource.ofSeed 3) 2) 0 0 roundTrip (by decide) (by decide)
  have hback : ((Server.new (RandomSource.ofSeed 3) 2).clockRun 0 0
      roundTrip).station.currentTime.toNat = 0 := by decide
  exact absurd (hback.symm.trans htime) (by decide)

end Server

end SmartLock
