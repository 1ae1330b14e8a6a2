/-
# What a refused fragment leaves behind

A fragment that a server answers with an error ought to leave no trace.  If its central is not
dropped for a wrong code or tag, the server is then as it has been, but for the packets in progress
and the nonces of the links (`Server.Like`), unless the fragment has completed a registration whose
answer the link has not taken.  That registration has put its secret in the place of the old one,
and its key in the place of the key of the session, although nobody is registered with it
(`Server.strand`).
-/
import SmartLock.Proofs.Server.Lockout
import SmartLock.Proofs.Server.SessionKeys

namespace SmartLock.Server

/-! ## Servers that are alike -/

/-- Two views of a server with the same shared part, and with sessions that are alike under the same
numbers. -/
structure Like (a b : Server) : Prop where
  station : a.station = b.station
  sessions : ∀ id, Option.Rel Session.Like (a.session? id) (b.session? id)

/-- What is found twice is alike. -/
theorem rel_refl (session : Option Session) : Option.Rel Session.Like session session := by
  cases session with
  | none => exact .none
  | some session => exact .some (.refl _)

/-- Alike sessions have a key, or neither has one. -/
theorem map_hasKey_of_rel {a b : Option Session} (h : Option.Rel Session.Like a b) :
    a.map (·.channel.cipher.hasKey) = b.map (·.channel.cipher.hasKey) := by
  cases h with
  | none => rfl
  | some hlike => simp only [Option.map_some, Cipher.hasKey, hlike.key]

theorem Like.refl (s : Server) : s.Like s := ⟨rfl, fun _ => rel_refl _⟩

/-- Whether a server is after a fragment like another one can be seen from the shared part and from
the session of the fragment, if the other one has all other sessions as they were. -/
theorem like_receive {s expected : Server} {id : SessionId} {old : Session}
    (hold : s.session? id = some old) {host : ServerHost} {fragment : Bytes}
    (hstation : (onFragment host s.station old fragment).station = expected.station)
    (hsession : Option.Rel Session.Like (some (onFragment host s.station old fragment).session)
      (expected.session? id))
    (hothers : ∀ other, id ≠ other → s.session? other = expected.session? other) :
    (s.step host (.receive id fragment)).server.Like expected := by
  constructor
  · rw [receive_of_session? hold]
    exact hstation
  · intro other
    by_cases hother : id = other
    · subst hother
      rw [session?_receive hold]
      exact hsession
    · rw [session?_receive_of_ne hother, hothers other hother]
      exact rel_refl _

/-! ## Registrations whose answer is not taken -/

/-- The server with another secret, and the session with a given number with its key under that
secret.  Everything else is as it was, registered or not. -/
def strand (s : Server) (id : SessionId) (secret : Key) : Server :=
  ⟨{ s.station with secret := secret },
    s.slots.map (Option.map fun session =>
      if session.id = id then session.withSecret secret else session)⟩

/-- The only session that is another one is that with the number. -/
theorem session?_strand (s : Server) (id : SessionId) (secret : Key) (other : SessionId) :
    (s.strand id secret).session? other =
      (s.session? other).map fun session =>
        if session.id = id then session.withSecret secret else session := by
  apply session?_map
  intro session
  split <;> rfl

/-- A registration whose answer is not taken leaves its secret and its key behind. -/
theorem like_strand_of_strandsRegistration {s : Server} {host : ServerHost} {id : SessionId}
    {fragment : Bytes} (h : s.StrandsRegistration ⟨host, .receive id fragment⟩ id) :
    ∃ payload secret index, s.Completes ⟨host, .receive id fragment⟩ id
        (ItemCode.registration.code :: payload) ∧
      s.station.registered = false ∧
      s.station.deriveSecret (Octets.ofBytes 64 payload) = .ok secret ∧
      (s.step host (.receive id fragment)).result = .error (.link (.writeFailed index)) ∧
      (s.step host (.receive id fragment)).server.Like (s.strand id secret) := by
  obtain ⟨⟨_, old, payload, authenticated, hrequest, hold, hreceived⟩, cause, herror⟩ := h
  cases hrequest
  have hturn : onFragment host s.station old fragment = _ := onFragment_registration hreceived
  have hresult : (s.step host (.receive id fragment)).result =
      (onFragment host s.station old fragment).result := by rw [receive_of_session? hold]
  rw [hresult] at herror ⊢
  -- Of the ways in which a registration can end, only one fails because of the link.
  rcases onRegistration_cases host
      { station := s.station
        session := { old with channel := (old.channel.receive fragment).1 } }
      payload with
    ⟨error, heq, hnot⟩ |
    ⟨secret, hnew, hsecret, ⟨-, -, hok⟩ | ⟨hstation, hlike, index, hfailed⟩⟩
  · rw [hturn, heq] at herror
    exact absurd (Except.error.inj herror) (hnot cause)
  · rw [hturn, hok] at herror
    cases herror
  · refine ⟨payload, secret, index, ⟨fragment, old, authenticated, rfl, hold, hreceived⟩, hnew,
      hsecret, hturn ▸ hfailed, ?_⟩
    have hkeyed : Session.Like { old with channel := (old.channel.receive fragment).1 } old :=
      ⟨rfl, rfl, Channel.key_receive .., rfl⟩
    apply like_receive hold
    · rw [hturn]
      exact hstation
    · rw [hturn, session?_strand, hold, Option.map_some, if_pos (mem_of_session? hold).2]
      exact .some (hlike.trans (hkeyed.withSecret secret))
    · intro other hne
      rw [session?_strand]
      cases hother : s.session? other with
      | none => rfl
      | some session =>
          rw [Option.map_some, if_neg]
          rw [(mem_of_session? hother).2]
          exact hne.symm

/-! ## Refusals -/

/-- **What a refused fragment leaves behind.**  A server answers a fragment with an error, and does
not drop the session for a wrong code or tag.  If the fragment has not completed a registration
whose answer was not taken, the shared part is as it was, and every session has its state, its key
and its nonce as before.  Otherwise nobody is registered, as before, but the secret is now the one
that follows from that registration, and the session has its key under it, in the state and with the
nonce that it had. -/
theorem like_of_refused (s : Server) (host : ServerHost) (id : SessionId) (fragment : Bytes)
    {error : ServerError} (herror : (s.step host (.receive id fragment)).result = .error error)
    (hother : error ≠ .authenticationFailed) :
    (¬ s.StrandsRegistration ⟨host, .receive id fragment⟩ id →
      (s.step host (.receive id fragment)).server.Like s) ∧
    (s.StrandsRegistration ⟨host, .receive id fragment⟩ id →
      ∃ payload secret index, s.Completes ⟨host, .receive id fragment⟩ id
          (ItemCode.registration.code :: payload) ∧
        s.station.registered = false ∧
        s.station.deriveSecret (Octets.ofBytes 64 payload) = .ok secret ∧
        error = .link (.writeFailed index) ∧
        (s.step host (.receive id fragment)).server.Like (s.strand id secret)) := by
  constructor
  · intro hnot
    cases hold : s.session? id with
    | none =>
        rw [step, receive, hold]
        exact .refl s
    | some old =>
        have hresult : (s.step host (.receive id fragment)).result =
            (onFragment host s.station old fragment).result := by rw [receive_of_session? hold]
        have hrefused := hresult.symm.trans herror
        cases onFragment_effect host s.station old fragment with
        | keep hstation hlike =>
            exact like_receive hold hstation (hold ▸ .some hlike) fun _ _ => rfl
        | drop hstation hlike hdropped =>
            exact absurd (Except.error.inj (hrefused.symm.trans hdropped)) hother
        | login payload authenticated hreceived hcode hstation hlike hok =>
            cases hok.symm.trans hrefused
        | register payload authenticated hreceived secret hnew hstation hlike hok =>
            cases hok.symm.trans hrefused
        | strand payload authenticated hreceived secret hnew hstation hlike index hfailed =>
            refine absurd ⟨?_, .writeFailed index, hresult.trans hfailed⟩ hnot
            exact ⟨fragment, old, payload, authenticated, rfl, hold, hreceived⟩
  · intro hstrands
    obtain ⟨payload, secret, index, hcompletes, hnew, hsecret, hfailed, hlike⟩ :=
      like_strand_of_strandsRegistration hstrands
    exact ⟨payload, secret, index, hcompletes, hnew, hsecret,
      Except.error.inj (herror.symm.trans hfailed), hlike⟩

/-- The server of `strandedRun` before the last fragment of the registration. -/
def unstranded : Server := ((Server.new (RandomSource.ofSeed 3) 2).run (strandedRun.take 6)).1

/-- That last fragment. -/
def strandingFragment : Bytes := [2, 203, 182, 64, 104, 55, 191, 81, 245, 0, 0, 0, 0]

/-- It is refused, and after it the session has a key. -/
theorem refused_strandingFragment :
    let after := unstranded.step (registrar false) (.receive 1 strandingFragment)
    after.result = .error (.link (.writeFailed 0)) ∧
      (unstranded.session? 1).map (·.channel.cipher.hasKey) = some false ∧
      (after.server.session? 1).map (·.channel.cipher.hasKey) = some true := by
  decide +kernel

/-- So the session is not like the one before. -/
theorem not_rel_strandingFragment :
    ¬ Option.Rel Session.Like
      ((unstranded.step (registrar false) (.receive 1 strandingFragment)).server.session? 1)
      (unstranded.session? 1) := by
  intro hrel
  obtain ⟨-, hbefore, hafter⟩ := refused_strandingFragment
  have hsame := map_hasKey_of_rel hrel
  rw [hbefore, hafter] at hsame
  cases hsame

/-- It has left the key of the registration behind. -/
theorem like_of_refused_unstranded :
    (unstranded.step (registrar false) (.receive 1 strandingFragment)).result =
        .error (.link (.writeFailed 0)) ∧
      ServerError.link (.writeFailed 0) ≠ .authenticationFailed ∧
      ∃ secret, (unstranded.step (registrar false) (.receive 1 strandingFragment)).server.Like
        (unstranded.strand 1 secret) := by
  obtain ⟨herror, -⟩ := refused_strandingFragment
  have hother : ServerError.link (.writeFailed 0) ≠ .authenticationFailed := by decide
  refine ⟨herror, hother, ?_⟩
  obtain ⟨hkept, hstranded⟩ := like_of_refused unstranded _ _ _ herror hother
  by_cases hstrands : unstranded.StrandsRegistration
      ⟨registrar false, .receive 1 strandingFragment⟩ 1
  · obtain ⟨payload, secret, index, -, -, -, -, hlike⟩ := hstranded hstrands
    exact ⟨secret, hlike⟩
  · exact absurd ((hkept hstrands).sessions 1) not_rel_strandingFragment

/-- Not every fragment that is refused, and does not have its session dropped, leaves the owner of
the server and the session as they were. -/
theorem not_forall_refused_like :
    ¬ ∀ (random : RandomSource) (maxSessions : Nat) (ms : List Moment) (host : ServerHost)
        (id : SessionId) (fragment : Bytes) (error : ServerError),
      let before := ((Server.new random maxSessions).run ms).1
      let after := before.step host (.receive id fragment)
      after.result = .error error → error ≠ .authenticationFailed →
        after.server.station.registered = before.station.registered ∧
        after.server.station.secret = before.station.secret ∧
        Option.Rel Session.Like (after.server.session? id) (before.session? id) := by
  intro h
  obtain ⟨-, -, hrel⟩ := h (RandomSource.ofSeed 3) 2 (strandedRun.take 6) (registrar false) 1
    strandingFragment (.link (.writeFailed 0)) refused_strandingFragment.1 (by decide)
  exact not_rel_strandingFragment hrel

end SmartLock.Server
