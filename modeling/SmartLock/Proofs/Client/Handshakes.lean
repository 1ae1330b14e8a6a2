/-
# What a client believes, and whose key it trusts

The session key of a client is the one of its latest login: it follows from the keys of the
conversation, from the random numbers of the client at that moment and from the token in the first
message with which the login has begun, and the client has had it ever since
(`Client.KeyOfHandshake`).

So whatever a client learns about its device, it learns from a message in plain or from one that has
the right tag under the key of the current handshake (`Client.informed_run`).  Messages in plain are
believed: `Client.not_forall_active_authenticated`.
-/
import SmartLock.Proofs.Client.HandshakeStart

namespace SmartLock.Client

/-! ## The key of a handshake -/

/-- With this moment a login begins, and the key of its secret and its token is installed. -/
def BeginsLogin (c : Client) (m : Moment) (key : Key) : Prop :=
  ∃ d body own, c.Hears m d .publish .initial body ∧ c.state ≠ .authenticating ∧
    c.LoginBegun m d body ∧ d.loginSession? c.random body = some (key, own)

/-- The key is the one of the latest login of a run, and the client has had it ever since. -/
inductive KeyOfHandshake (c : Client) : List Moment → Key → Prop
  /-- The last moment begins the login. -/
  | begins (before : List Moment) (m : Moment) (key : Key) (h : (c.run before).1.BeginsLogin m key) :
      KeyOfHandshake c (before ++ [m]) key
  /-- The last moment keeps the key, and if a first message comes with it, the client is still
  waiting for the answer to the login. -/
  | keeps (before : List Moment) (m : Moment) (key : Key) (h : KeyOfHandshake c before key)
      (hwaits : ∀ d body, (c.run before).1.Hears m d .publish .initial body →
        (c.run before).1.state = .authenticating)
      (hkey : (c.run (before ++ [m])).1.sessionKey? = some key) :
      KeyOfHandshake c (before ++ [m]) key

/-- What is read is heard. -/
theorem Reads.hears {c : Client} {m : Moment} {d : Dialogue} {op : OpCode} {item : ItemCode}
    (h : c.Reads m d op item) : ∃ body, c.Hears m d op item body := by
  obtain ⟨fragment, body, hrequest, hd, hplain | hauthentic⟩ := h
  · exact ⟨body, fragment, false, hrequest, hd,
      Channel.snd_receive_eq_complete_iff.mpr (.inl ⟨rfl, hplain⟩)⟩
  · exact ⟨body, fragment, true, hrequest, hd,
      Channel.snd_receive_eq_complete_iff.mpr (.inr ⟨rfl, hauthentic⟩)⟩

/-- A first message that comes while a client waits does not change its session key. -/
theorem sessionKey?_of_authenticating {c : Client} {m : Moment} {d : Dialogue} {body : Bytes}
    (h : c.Hears m d .publish .initial body) (hstate : c.state = .authenticating) :
    (c.step m.host m.request).client.sessionKey? = c.sessionKey? := by
  obtain ⟨fragment, authenticated, hrequest, hd, hreceived⟩ := h
  rw [hrequest, step, receive_initial_of_authenticating m.host hd hstate hreceived,
    ClientTurn.finish, sessionKey?_eq_standing?, standing?_heard hd, ← sessionKey?_eq_standing?]

/-- A session key after a step belongs to a login that begins with it, or has been there before. -/
theorem beginsLogin_or_keeps_of_step {c : Client} {m : Moment} {key : Key}
    (hregular : ∀ s, c.standing? = some s → Regular s)
    (h : (c.step m.host m.request).client.sessionKey? = some key) :
    c.BeginsLogin m key ∨ (c.sessionKey? = some key ∧
      ∀ d body, c.Hears m d .publish .initial body → c.state = .authenticating) := by
  by_cases hhears : ∃ d body, c.Hears m d .publish .initial body
  · obtain ⟨d, body, hhears⟩ := hhears
    by_cases hstate : c.state = .authenticating
    · rw [sessionKey?_of_authenticating hhears hstate] at h
      exact .inr ⟨h, fun _ _ _ => hstate⟩
    rcases loginBegun_or_loginGivenUp (hregular _ hhears.standing?) hhears hstate with
      hbegun | hgivenUp
    · obtain ⟨after, new, own, device, hafter, hsession, -, hnew, -⟩ := hbegun.session
      rw [sessionKey?, hafter, Option.bind_some, hnew] at h
      obtain rfl := Option.some.inj h
      exact .inl ⟨d, body, own, hhears, hstate, hbegun, hsession⟩
    · obtain ⟨after, hafter, hnone, -⟩ := hgivenUp.channel
      rw [sessionKey?, hafter, Option.bind_some, hnone] at h
      cases h
  · -- Without a first message the key is the old one.
    rcases sessionKey?_of_step h with hsame | ⟨d, hreads⟩
    · exact .inr ⟨hsame, fun d body hheard => absurd ⟨d, body, hheard⟩ hhears⟩
    · obtain ⟨body, hheard⟩ := hreads.hears
      exact absurd ⟨d, body, hheard⟩ hhears

/-- A session key is the one of the latest login. -/
theorem keyOfHandshake_run {random : RandomSource} {ms : List Moment} {key : Key}
    (h : ((Client.new random).run ms).1.sessionKey? = some key) :
    (Client.new random).KeyOfHandshake ms key := by
  induction ms using List.reverseRecOn with
  | nil => cases h
  | append_singleton ms m ih =>
      have hstep := h
      rw [run_concat] at hstep
      rcases beginsLogin_or_keeps_of_step (fun _ => regular_run random ms) hstep with
        hbegins | ⟨hsame, hwaits⟩
      · exact .begins ms m key hbegins
      · exact .keeps ms m key (ih hsame) hwaits h

/-! ## Runs -/

/-- **What a client believes.**  In every run of a new client, whatever its device sends:

* it becomes active, changes its status or its setting, or reports something only at the moment
  when a fragment completes a message that may tell so; that message was assembled in plain, or
  encrypted with the right tag under the session key;
* it is active only if it has believed a message that activates;
* its session key is the one of its latest login: of the secret, and of the token in the device's
  first message with which this login has begun. -/
theorem informed_run (random : RandomSource) (ms : List Moment) :
    (∀ before m after, ms = before ++ m :: after → (∀ model, m.request ≠ .begin model) →
      ((Client.new random).run before).1.Learns m →
      ((Client.new random).run before).1.Believes m Dialogue.informs) ∧
    (((Client.new random).run ms).1.state = .active →
      (Client.new random).Happens ms fun c m => c.Believes m Dialogue.activates) ∧
    ∀ key, ((Client.new random).run ms).1.sessionKey? = some key →
      (Client.new random).KeyOfHandshake ms key :=
  ⟨fun _ _ _ _ hbegin hlearns => believes_of_learns hbegin hlearns, believes_of_active_run,
    fun _ hkey => keyOfHandshake_run hkey⟩

/-- After the run the client is active, and it has believed a message that activates. -/
theorem informed_run_plainRun :
    ((Client.new (RandomSource.ofSeed 3)).run plainRun).1.state = .active ∧
      (Client.new (RandomSource.ofSeed 3)).Happens plainRun
        fun c m => c.Believes m Dialogue.activates := by
  have hactive : ((Client.new (RandomSource.ofSeed 3)).run plainRun).1.state = .active := by
    decide +kernel
  exact ⟨hactive, (informed_run (RandomSource.ofSeed 3) plainRun).2.1 hactive⟩

/-- Not every client that is active has received a message that authenticates: what a device says in
plain is believed. -/
theorem not_forall_active_authenticated :
    ¬ ∀ (random : RandomSource) (ms : List Moment),
      ((Client.new random).run ms).1.state = .active →
      (Client.new random).Happens ms fun c m => ∃ fragment d message,
        m.request = .receive fragment ∧ c.dialogue = some d ∧
          d.channel.Authenticates fragment message := by
  intro h
  have hactive : ((Client.new (RandomSource.ofSeed 3)).run plainRun).1.state = .active := by
    decide +kernel
  obtain ⟨before, m, after, hrun, fragment, d, message, hrequest, -, hauthentic⟩ :=
    h (RandomSource.ofSeed 3) plainRun hactive
  -- Every fragment of the run is a whole plain packet.
  have hheader (payload : Bytes) : Fragment.isEncrypted (3 :: payload) = false := by
    cases payload <;> rfl
  have hplain : ∀ m ∈ plainRun, ∀ fragment, m.request = .receive fragment →
      Fragment.isEncrypted fragment = false := by
    simp [plainRun, hheader]
  have hnot := hplain m (hrun ▸ by simp) fragment hrequest
  rw [hauthentic.isEncrypted] at hnot
  cases hnot

end SmartLock.Client
