/-
# Failures of cryptography

A session that runs has a key, and a server with a session has a key pair (`Server.keyed_run`).  So
nothing that a server sends to a central fails for want of a key, and only one thing that a central
can ask for makes the cryptography of the server fail: a registration under a public key that writes
no point of the curve (`Server.HearsInvalidKey`).  That is so in every run of a new server
(`Server.cryptography_run`).
-/
import SmartLock.Proofs.Crypto.KeyAgreement
import SmartLock.Proofs.Link.FailedSends
import SmartLock.Proofs.Server.Equipment
import SmartLock.Proofs.Server.Lockout

namespace SmartLock

/-- With a key, a message that is not too long fails only because a fragment is not taken. -/
theorem Channel.result_send_encrypted {c : Channel} {key : Key} (hkey : c.cipher.key = some key)
    (writer : Fragment.Writer) {message : Bytes} (hlen : message.length ≤ Ccm.maxLength) :
    (c.send writer message true).result = .ok () ∨
      ∃ index, (c.send writer message true).result = .error (.writeFailed index) := by
  rcases send_encrypted_cases hkey writer message with hfailed | ⟨packet, -, hsent⟩
  · obtain ⟨packet, hpacket⟩ :=
      Cipher.exists_encrypt? key c.cipher.sendNonce Cipher.associated hlen
    have hoffered : (c.send writer message true).result ≠ .error (.crypto .encrypt) := by
      rw [send, if_pos rfl, Cipher.encrypt, hkey]
      dsimp only
      rw [hpacket]
      dsimp only [sendPacket]
      split <;> simp
    exact absurd (by rw [hfailed]) hoffered
  · rw [hsent]
    rcases sendPacket_cases { c with cipher := c.cipher.advanceSend } writer packet true with
      htaken | ⟨taken, refused, rest, -, hrefused⟩
    · rw [htaken]
      exact .inl rfl
    · rw [hrefused]
      exact .inr ⟨_, rfl⟩

namespace Server

/-! ## Results -/

/-- The only failure of cryptography that a result can be is the refusal of a public key, and it is
that exactly if the public key was invalid. -/
structure FailsOnlyIf (invalid : Prop) (result : Except ServerError Unit) : Prop where
  /-- On the way to a central nothing fails but the link. -/
  link : ∀ error, result ≠ .error (.link (.crypto error))
  /-- The server itself fails for the public key. -/
  own : ∀ error, result = .error (.crypto error) ↔ error = .invalidPublicKey ∧ invalid

/-- A result that is no failure of cryptography. -/
theorem FailsOnlyIf.of_ne {invalid : Prop} {result : Except ServerError Unit} (h : ¬ invalid)
    (hlink : ∀ error, result ≠ .error (.link (.crypto error)))
    (hown : ∀ error, result ≠ .error (.crypto error)) : FailsOnlyIf invalid result := by
  refine ⟨hlink, fun error => ?_⟩
  constructor
  · intro heq
    exact absurd heq (hown error)
  · rintro ⟨-, hinvalid⟩
    exact absurd hinvalid h

/-- The result of a message that only the link can keep from being sent. -/
theorem FailsOnlyIf.of_sent {invalid : Prop} {result : Except ServerError Unit} (h : ¬ invalid)
    (hsent : result = .ok () ∨ ∃ index, result = .error (.link (.writeFailed index))) :
    FailsOnlyIf invalid result := by
  rcases hsent with rfl | ⟨index, rfl⟩
  · exact .of_ne h (by simp) (by simp)
  · exact .of_ne h (by simp) (by simp)

/-- The condition may be put in other words. -/
theorem FailsOnlyIf.congr {invalid invalid' : Prop} {result : Except ServerError Unit}
    (h : FailsOnlyIf invalid result) (hiff : invalid ↔ invalid') : FailsOnlyIf invalid' result :=
  ⟨h.link, fun error => (h.own error).trans (and_congr_right fun _ => hiff)⟩

/-! ## Messages -/

section Messages

variable (host : ServerHost) (t : Turn)

/-- With a key, an encrypted message of a server fails only because a fragment is not taken. -/
theorem result_notify_encrypted (hkey : t.session.channel.cipher.hasKey = true) (op : OpCode)
    (item : ItemCode) {body : Bytes} (hlen : body.length + 2 ≤ Ccm.maxLength) :
    (t.notify host op item body true).result = .ok () ∨
      ∃ index, (t.notify host op item body true).result = .error (.link (.writeFailed index)) := by
  obtain ⟨key, hkey⟩ := Option.isSome_iff_exists.mp hkey
  let writer : Fragment.Writer := fun taken fragment =>
    host.takes (t.outputs ++ taken.reverse.map (.write t.session.id · true)) t.session.id fragment
  have hresult : (t.notify host op item body true).result =
      (t.session.channel.send writer (op.code :: item.code :: body) true).result.mapError .link :=
    rfl
  have hmessage : (op.code :: item.code :: body).length ≤ Ccm.maxLength := hlen
  rcases Channel.result_send_encrypted hkey writer hmessage with hok | ⟨index, herror⟩
  · rw [hresult, hok]
    exact .inl rfl
  · rw [hresult, herror]
    exact .inr ⟨index, rfl⟩

variable (payload : Bytes)

/-- A login asks for the key before anything is encrypted. -/
theorem failsOnlyIf_onLogin : FailsOnlyIf False (onLogin host t payload).result := by
  rw [onLogin]
  split
  · exact .of_ne not_false (by simp [Turn.fail]) (by simp [Turn.fail])
  split
  · exact .of_ne not_false (by simp [Turn.fail]) (by simp [Turn.fail])
  rename_i hkey
  split
  · exact .of_ne not_false (by simp [Turn.fail]) (by simp [Turn.fail])
  · have hsent := result_notify_encrypted host t (by simpa using hkey) .response .login
      (length_loginBody_le t.station)
    rcases hsent with hok | ⟨index, herror⟩
    · rw [andThen_of_ok hok]
      exact .of_sent not_false (.inl rfl)
    · rw [andThen_of_error herror]
      exact .of_sent not_false (.inr ⟨index, herror⟩)

/-- A command is answered under a key if sessions that run have one. -/
theorem failsOnlyIf_onCommand
    (hkey : t.session.state = .running → t.session.channel.cipher.hasKey = true)
    (item : ItemCode) : FailsOnlyIf False (onCommand host t item payload).result := by
  unfold onCommand
  split
  · exact .of_ne not_false (by simp [Turn.fail]) (by simp [Turn.fail])
  rename_i hrunning
  have hkey := hkey (not_not.mp hrunning)
  split
  · exact .of_ne not_false (by simp [Turn.fail]) (by simp [Turn.fail])
  split
  · exact .of_ne not_false (by simp [Turn.fail]) (by simp [Turn.fail])
  · have hanswer (outputs : List ServerOutput) (result : ResultCode) :
        let told : Turn := { t with outputs := outputs }
        FailsOnlyIf False (told.notify host .response item [result.code] true).result := by
      intro told
      have hshort : [result.code].length + 2 ≤ Ccm.maxLength := by
        show 3 ≤ 65535
        omega
      exact .of_sent not_false (result_notify_encrypted host told hkey .response item hshort)
    dsimp only
    split
    · exact hanswer _ _
    · exact hanswer t.outputs _

/-- What a station with a key pair derives of an offered public key: a secret, or nothing if the key
writes no point of the curve. -/
theorem deriveSecret_cases {station : Station} (hkeys : station.keys.isSome = true)
    (offered : PublicKey) :
    (offered.point? = none ∧ station.deriveSecret offered = .error .invalidPublicKey) ∨
      (offered.point? ≠ none ∧ ∃ secret, station.deriveSecret offered = .ok secret) := by
  obtain ⟨own, hown⟩ := Option.isSome_iff_exists.mp hkeys
  have hderive : station.deriveSecret offered = own.sharedKey offered := by
    rw [Station.deriveSecret, hown]
  rw [hderive]
  cases hpoint : offered.point? with
  | none =>
      refine .inl ⟨rfl, ?_⟩
      rw [PrivateKey.sharedKey, PrivateKey.sharedSecret, hpoint]
      rfl
  | some point =>
      have hvalid : offered.point?.isSome = true := by rw [hpoint]; rfl
      exact .inr ⟨by simp, own.exists_sharedKey_of_isSome hvalid⟩

/-- The payload is a registration that nothing speaks against but its public key, which writes no
point of the curve. -/
def OffersInvalidKey (host : ServerHost) (station : Station) (payload : Bytes) : Prop :=
  payload.length = registrationSize ∧ station.registered = false ∧ host.registers = true ∧
    PublicKey.point? (Octets.ofBytes 64 payload) = none

/-- On a server with a key pair only an invalid public key is a matter of cryptography. -/
theorem failsOnlyIf_onRegistration (hkeys : t.station.keys.isSome = true) :
    FailsOnlyIf (OffersInvalidKey host t.station payload)
      (onRegistration host t payload).result := by
  rw [onRegistration]
  split
  · rename_i hlen
    exact .of_ne (fun h => hlen h.1) (by simp [Turn.fail]) (by simp [Turn.fail])
  rename_i hlen
  split
  · rename_i hregistered
    exact .of_ne (fun h => by simp [h.2.1] at hregistered) (by simp [Turn.fail])
      (by simp [Turn.fail])
  rename_i hregistered
  split
  · rename_i hregisters
    exact .of_ne (fun h => by simp [h.2.2.1] at hregisters) (by simp [Turn.fail])
      (by simp [Turn.fail])
  rename_i hregisters
  -- Now everything depends on the public key.
  rcases deriveSecret_cases hkeys (Octets.ofBytes 64 payload) with
    ⟨hpoint, hrefused⟩ | ⟨hpoint, secret, hsecret⟩
  · have hinvalid : OffersInvalidKey host t.station payload :=
      ⟨not_not.mp hlen, by simpa using hregistered, by simpa using hregisters, hpoint⟩
    rw [hrefused]
    refine ⟨by simp [Turn.fail], fun error => ?_⟩
    constructor
    · intro heq
      have hsame : CryptoError.invalidPublicKey = error :=
        ServerError.crypto.inj (Except.error.inj heq)
      exact ⟨hsame.symm, hinvalid⟩
    · rintro ⟨rfl, -⟩
      rfl
  · have hvalid : ¬ OffersInvalidKey host t.station payload := fun h => hpoint h.2.2.2
    obtain ⟨keys, hkeys⟩ := Option.isSome_iff_exists.mp hkeys
    have hpublic : t.station.publicKey = .ok keys.publicKey := by rw [Station.publicKey, hkeys]
    rw [hsecret, hpublic]
    dsimp only
    let keyed : Turn :=
      { t with
        station := { t.station with secret := secret }
        session := t.session.withSecret secret }
    rcases result_notify_plain host keyed .response .registration
      (registrationBody keyed.station keys.publicKey) with hok | ⟨index, herror⟩
    · rw [andThen_of_ok hok]
      exact .of_sent hvalid (.inl hok)
    · rw [andThen_of_error herror]
      exact .of_sent hvalid (.inr ⟨index, herror⟩)

/-- What a whole message fails for. -/
theorem failsOnlyIf_onMessage (hresult : t.result = .ok ())
    (hkeys : t.station.keys.isSome = true)
    (hkey : t.session.state = .running → t.session.channel.cipher.hasKey = true)
    (message : Bytes) :
    FailsOnlyIf
      (∃ payload, message = ItemCode.registration.code :: payload ∧
        OffersInvalidKey host t.station payload)
      (onMessage host t message).result := by
  have hquiet {invalid : Prop} (h : ¬ invalid) : FailsOnlyIf invalid t.result :=
    .of_sent h (.inl hresult)
  cases message with
  | nil =>
      refine hquiet ?_
      rintro ⟨payload, heq, -⟩
      cases heq
  | cons code payload =>
      cases hcode : ItemCode.ofCode? code with
      | none =>
          have hsame : onMessage host t (code :: payload) = t := by rw [onMessage, hcode]
          rw [hsame]
          refine hquiet ?_
          rintro ⟨other, heq, -⟩
          rw [(List.cons.inj heq).1, ItemCode.ofCode?_code] at hcode
          cases hcode
      | some item =>
          rw [ItemCode.ofCode?_eq_some_iff.mp hcode, onMessage_code]
          by_cases hitem : item = .registration
          · subst hitem
            rw [if_pos rfl]
            refine (failsOnlyIf_onRegistration host t payload hkeys).congr ?_
            constructor
            · intro hinvalid
              exact ⟨payload, rfl, hinvalid⟩
            · rintro ⟨other, heq, hinvalid⟩
              rw [(List.cons.inj heq).2]
              exact hinvalid
          · have hother : False ↔ ∃ other, item.code :: payload =
                ItemCode.registration.code :: other ∧ OffersInvalidKey host t.station other := by
              refine iff_of_false not_false ?_
              rintro ⟨other, heq, -⟩
              have hsame : some item = some .registration := by
                rw [← ItemCode.ofCode?_code item, (List.cons.inj heq).1, ItemCode.ofCode?_code]
              exact hitem (Option.some.inj hsame)
            rw [if_neg hitem]
            split
            · exact (failsOnlyIf_onLogin host t payload).congr hother
            split
            · exact (failsOnlyIf_onCommand host t payload hkey item).congr hother
            · exact (hquiet not_false).congr hother

end Messages

/-! ## Keys -/

/-- Where there is a session there is a key pair, and a session that runs has a key. -/
structure Keyed (s : Server) : Prop where
  pair : ∀ session ∈ s.sessions, s.station.keys.isSome = true
  running : ∀ session ∈ s.sessions, session.state = .running →
    session.channel.cipher.hasKey = true

/-- A server that has been started stays so. -/
theorem started_step {s : Server} (h : s.station.model.isSome = true) (m : Moment) :
    (s.step m.host m.request).server.station.model.isSome = true := by
  obtain ⟨host, request⟩ := m
  cases request with
  | begin model uuid =>
      simp only [step, begin, modifyStation]
      split <;> rfl
  | generateKeys => exact h
  | loadKey key =>
      simp only [step, loadKey]
      cases PrivateKey.ofBytes? key <;> exact h
  | setRegistered secret => exact h
  | setMechStatus status => exact h
  | setMechSetting setting => exact h
  | setLoginTimeout milliseconds => exact h
  | setCurrentTime seconds now => exact h
  | subscribed id now =>
      rcases subscribed_cases host s id now with ⟨error, -, hstep⟩ | ⟨-, -, -, hstep⟩
      · rw [hstep]
        exact h
      · rw [hstep, opened, station_greet]
        exact h
  | disconnected id => exact h
  | receive id fragment =>
      simp only [step, receive]
      split
      · exact h
      · rw [(keys_onFragment ..).1]
        exact h
  | update now => exact h
  | notify id notice =>
      cases id with
      | none => exact h
      | some id =>
          simp only [step, notifyOne]
          split <;> exact h

/-- Only a server that has been started lets a central subscribe. -/
theorem started_of_mem_step {s : Server} {m : Moment}
    (h : ∀ old ∈ s.sessions, s.station.model.isSome = true) {session : Session}
    (hsession : session ∈ (s.step m.host m.request).server.sessions) :
    (s.step m.host m.request).server.station.model.isSome = true := by
  by_cases hstarted : s.station.model.isSome = true
  · exact started_step hstarted m
  · have hnone (old : Session) : old ∉ s.sessions := fun hold => hstarted (h old hold)
    exfalso
    cases session_step hsession with
    | kept old hold => exact hnone old hold
    | dropped old hold => exact hnone old hold
    | opened id now hrequest =>
        rw [hrequest] at hsession
        rcases subscribed_cases m.host s id now with ⟨error, -, hstep⟩ | ⟨hmodel, -⟩
        · rw [hstep] at hsession
          exact hnone session hsession
        · exact hstarted (Option.isSome_iff_ne_none.mpr hmodel)
    | loggedIn old hold => exact hnone old (mem_of_session? hold).1
    | registered haccepts =>
        obtain ⟨⟨fragment, old, -, -, -, hold, -⟩, -⟩ := haccepts
        exact hnone old (mem_of_session? hold).1
    | stranded old hold => exact hnone old hold

/-- In every run of a new server its sessions find the keys that they need. -/
theorem keyed_run (random : RandomSource) (maxSessions : Nat) (ms : List Moment) :
    ((Server.new random maxSessions).run ms).1.Keyed := by
  have hstarted : ∀ session ∈ ((Server.new random maxSessions).run ms).1.sessions,
      ((Server.new random maxSessions).run ms).1.station.model.isSome = true := by
    induction ms using List.reverseRecOn with
    | nil =>
        intro session hsession
        rw [run, sessions_new] at hsession
        cases hsession
    | append_singleton ms m ih =>
        intro session hsession
        rw [run_concat] at hsession ⊢
        exact started_of_mem_step ih hsession
  constructor
  · intro session hsession
    exact (equipped_run random maxSessions ms).keys (hstarted session hsession)
  · intro session hsession hrunning
    exact (running_run hsession hrunning).1

/-! ## Fragments -/

/-- The fragment of this moment completes a registration under a public key that writes no point of
the curve, and nothing else speaks against the registration. -/
def HearsInvalidKey (s : Server) (m : Moment) (id : SessionId) : Prop :=
  ∃ payload, s.Completes m id (ItemCode.registration.code :: payload) ∧
    OffersInvalidKey m.host s.station payload

/-- What is heard through a session is what its channel makes of the fragment. -/
theorem hearsInvalidKey_receive_iff {s : Server} {id : SessionId} {old : Session}
    (hold : s.session? id = some old) (host : ServerHost) (fragment : Bytes) :
    s.HearsInvalidKey ⟨host, .receive id fragment⟩ id ↔
      ∃ payload authenticated, (old.channel.receive fragment).2 =
          .complete (ItemCode.registration.code :: payload) authenticated ∧
        OffersInvalidKey host s.station payload := by
  constructor
  · rintro ⟨payload, ⟨other, session, authenticated, hrequest, hsession, hcomplete⟩, hinvalid⟩
    cases hrequest
    rw [hold] at hsession
    cases hsession
    exact ⟨payload, authenticated, hcomplete, hinvalid⟩
  · rintro ⟨payload, authenticated, hcomplete, hinvalid⟩
    exact ⟨payload, ⟨fragment, old, authenticated, rfl, hold, hcomplete⟩, hinvalid⟩

/-- What a fragment fails for. -/
theorem failsOnlyIf_receive {s : Server} (h : s.Keyed) (host : ServerHost) (id : SessionId)
    (fragment : Bytes) :
    FailsOnlyIf (s.HearsInvalidKey ⟨host, .receive id fragment⟩ id)
      (s.step host (.receive id fragment)).result := by
  cases hold : s.session? id with
  | none =>
      have hunheard : ¬ s.HearsInvalidKey ⟨host, .receive id fragment⟩ id := by
        rintro ⟨payload, ⟨fragment, session, authenticated, -, hsession, -⟩, -⟩
        rw [hold] at hsession
        cases hsession
      rw [step, receive, hold]
      exact .of_ne hunheard (by simp) (by simp)
  | some old =>
      have hmem := (mem_of_session? hold).1
      rw [receive_of_session? hold]
      refine FailsOnlyIf.congr ?_ (hearsInvalidKey_receive_iff hold host fragment).symm
      dsimp only
      rcases onFragment_cases host s.station old fragment with
        ⟨message, authenticated, hreceived, heq⟩ | ⟨hreceived, heq⟩ | ⟨hquiet, heq⟩
      · have hkey : old.state = .running →
            (old.channel.receive fragment).1.cipher.hasKey = true := by
          intro hrunning
          rw [Cipher.hasKey, Channel.key_receive]
          exact h.running old hmem hrunning
        rw [heq, hreceived]
        refine (failsOnlyIf_onMessage host _ rfl (h.pair old hmem) hkey message).congr ?_
        constructor
        · rintro ⟨payload, rfl, hinvalid⟩
          exact ⟨payload, authenticated, rfl, hinvalid⟩
        · rintro ⟨payload, authenticated', hcomplete, hinvalid⟩
          exact ⟨payload, (Received.complete.inj hcomplete).1, hinvalid⟩
      · rw [heq, hreceived]
        refine .of_ne ?_ (by simp [Turn.fail]) (by simp [Turn.fail])
        rintro ⟨payload, authenticated, hcomplete, -⟩
        cases hcomplete
      · rw [heq]
        refine .of_sent ?_ (.inl rfl)
        rintro ⟨payload, authenticated, hcomplete, -⟩
        exact hquiet.2 _ authenticated hcomplete

/-! ## Notifications -/

/-- When the links take everything, a notification of all sessions fails only for its length. -/
theorem failed_notifySlots_eq_zero_iff {host : ServerHost}
    (htakes : ∀ outputs id fragment, host.takes outputs id fragment = true) (station : Station)
    (n : Notice) (outputs : List ServerOutput) {slots : List (Option Session)}
    (hkeys : ∀ session, some session ∈ slots → session.state = .running →
      session.channel.cipher.hasKey = true) :
    (notifySlots host station n outputs slots).2.2 = 0 ↔
      n.body.length + 2 ≤ Ccm.maxLength ∨
        ∀ session, some session ∈ slots → session.state ≠ .running := by
  induction slots generalizing outputs with
  | nil => simp [notifySlots]
  | cons slot rest ih =>
      have hrest := fun outputs => ih outputs fun other hother =>
        hkeys other (List.mem_cons_of_mem _ hother)
      cases slot with
      | none =>
          simp only [notifySlots, List.mem_cons, reduceCtorEq, false_or]
          exact hrest outputs
      | some first =>
          by_cases hrunning : first.state = .running
          · obtain ⟨key, hkey⟩ := Option.isSome_iff_exists.mp
              (hkeys first List.mem_cons_self hrunning)
            let t : Turn := { station := station, session := first, outputs := outputs }
            simp only [notifySlots, if_pos hrunning]
            by_cases hshort : n.body.length + 2 ≤ Ccm.maxLength
            · have hsendable : (⟨n.op.code :: n.item.code :: n.body, true⟩ : Message).Sendable :=
                hshort
              obtain ⟨writer, -, hsent⟩ := notify_takesAll htakes (t := t) hkey hsendable
              have hok : (t.notify host n.op n.item n.body true).result = .ok () := by rw [hsent]
              rw [hok]
              exact (hrest _).trans (iff_of_true (.inl hshort) (.inl hshort))
            · obtain ⟨error, herror⟩ := notify_error_of_lt host (t := t) n.op n.item hkey
                (Nat.lt_of_not_le hshort)
              rw [herror]
              refine iff_of_false (Nat.succ_ne_zero _) ?_
              rintro (hlen | hidle)
              · exact hshort hlen
              · exact hidle first List.mem_cons_self hrunning
          · simp only [notifySlots, if_neg hrunning]
            refine (hrest outputs).trans (or_congr_right ?_)
            constructor
            · intro hidle other hother
              rcases List.mem_cons.mp hother with heq | hother
              · rw [Option.some.inj heq]
                exact hrunning
              · exact hidle other hother
            · intro hidle other hother
              exact hidle other (List.mem_cons_of_mem _ hother)

/-! ## Runs -/

/-- How far the cryptography of a server holds. -/
structure CryptographyHolds (s : Server) : Prop where
  /-- A fragment makes it fail for an invalid public key of a registration, and for nothing else. -/
  receive : ∀ host id fragment, FailsOnlyIf (s.HearsInvalidKey ⟨host, .receive id fragment⟩ id)
    (s.step host (.receive id fragment)).result
  /-- A notification of all sessions whose links take everything succeeds, unless it is too long for
  some session that runs. -/
  notify : ∀ host n, (∀ outputs id fragment, host.takes outputs id fragment = true) →
    ((s.step host (.notify none n)).result = .ok () ↔
      n.body.length ≤ 65533 ∨ ∀ session ∈ s.sessions, session.state ≠ .running)

/-- **Cryptography does not fail on the server's side**, in every run of a new server.  The only
failure of cryptography that a fragment leads to is that a registration, against which nothing else
speaks, has an invalid public key; and a notification of all sessions with a body of at most 65533
bytes succeeds when their links take everything. -/
theorem cryptography_run (random : RandomSource) (maxSessions : Nat) (ms : List Moment) :
    ((Server.new random maxSessions).run ms).1.CryptographyHolds := by
  generalize hs : ((Server.new random maxSessions).run ms).1 = s
  have hkeyed : s.Keyed := hs ▸ keyed_run random maxSessions ms
  constructor
  · exact failsOnlyIf_receive hkeyed
  · intro host n htakes
    have hkeys : ∀ session, some session ∈ s.slots → session.state = .running →
        session.channel.cipher.hasKey = true :=
      fun session hslot => hkeyed.running session (mem_sessions.mpr hslot)
    have hfailed := failed_notifySlots_eq_zero_iff htakes s.station n [] hkeys
    have hresult : (s.step host (.notify none n)).result = .ok () ↔
        (notifySlots host s.station n [] s.slots).2.2 = 0 := by
      simp only [step, notifyAll]
      split
      · rename_i hpos
        exact iff_of_false (by simp) hpos.ne'
      · rename_i hzero
        exact iff_of_true rfl (Nat.eq_zero_of_not_pos hzero)
    have hlen : n.body.length + 2 ≤ Ccm.maxLength ↔ n.body.length ≤ 65533 := by
      rw [Ccm.maxLength]
      omega
    simp only [hresult, hfailed, hlen, mem_sessions]

/-- A central that offers 64 zeros as its public key. -/
example :
    let host : ServerHost := { takes := fun _ _ _ => true, registers := true }
    let offered : List Moment := [⟨host, .begin .sesame5 Uuid.nil⟩, ⟨host, .subscribed 1 0⟩,
      ⟨host, .receive 1 (1 :: ItemCode.registration.code :: List.replicate 18 0)⟩,
      ⟨host, .receive 1 (0 :: List.replicate 19 0)⟩, ⟨host, .receive 1 (0 :: List.replicate 19 0)⟩]
    (((Server.new (RandomSource.ofSeed 3) 1).run offered).1.step host
      (.receive 1 (2 :: List.replicate 12 0))).result = .error (.crypto .invalidPublicKey) := by
  decide +kernel

end Server

end SmartLock
