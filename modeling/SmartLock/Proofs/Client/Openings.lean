/-
# With what a client answers a device's token

The message that starts a login, as a function of the keys of a conversation, of the random numbers
of the client and of the device's first message (`Dialogue.loginMessage?`).  It is all that a client
sends when it hears such a message, and it is sent in plain (`Dialogue.offer_onInitial`).
-/
import SmartLock.Proofs.Client.LoginSteps

namespace SmartLock

/-- The message by which a client of the second generation logs in. -/
def loginRequestOs2 (secret : Key) (fresh : PublicKey) (own device : Token) : Bytes :=
  OpCode.sync.code :: ItemCode.login.code :: Dialogue.loginBodyOs2 secret fresh own device

namespace Dialogue

/-- The token that a client of the second generation draws for a login. -/
def drawnToken (random : RandomSource) : Token := (random.draw tokenSize).1

/-- The key pair that a client of the second generation makes for a login. -/
def freshKey (random : RandomSource) : PrivateKey :=
  (PrivateKey.generate (random.draw tokenSize).2).1

/-- The random numbers that are left after a login of the second generation. -/
def restOfRandom (random : RandomSource) : RandomSource :=
  (PrivateKey.generate (random.draw tokenSize).2).2

/-- The message with which a client answers the device's first message, if it does. -/
def loginMessage? (d : Dialogue) (random : RandomSource) (body : Bytes) : Option Bytes :=
  if body.length < tokenSize then none
  else
    let device := Octets.ofBytes tokenSize body
    match d.login with
    | .os2 none | .os3 none _ _ => none
    | .os2 (some keys) =>
        match (freshKey random).sharedKey keys.publicKey with
        | .error _ => none
        | .ok _ =>
            some (loginRequestOs2 keys.secret (freshKey random).publicKey (drawnToken random) device)
    | .os3 (some secret) _ _ => some (loginRequest (sessionKeyOs3 secret device))

/-- The session key for which a client answers the device's first message, and the client's own
token, if it does. -/
def loginSession? (d : Dialogue) (random : RandomSource) (body : Bytes) : Option (Key × Token) :=
  if body.length < tokenSize then none
  else
    let device := Octets.ofBytes tokenSize body
    match d.login with
    | .os2 none | .os3 none _ _ => none
    | .os2 (some keys) =>
        match (freshKey random).sharedKey keys.publicKey with
        | .error _ => none
        | .ok shared => some (sessionKeyOs2 shared (drawnToken random) device, drawnToken random)
    | .os3 (some secret) _ _ => some (sessionKeyOs3 secret device, Octets.zero 4)

/-- The login of the second generation: what is drawn for it, and what it sends. -/
theorem openOs2_eq (d : Dialogue) (writer : Fragment.Writer) (random : RandomSource)
    (keys : DeviceKeys) (device : Token) :
    d.openOs2 writer random keys device =
      match (freshKey random).sharedKey keys.publicKey with
      | .error _ => { dialogue := d, random := restOfRandom random, events := [.disconnect] }
      | .ok shared =>
          Opening.ofSent
            ((d.keyed (sessionKeyOs2 shared (drawnToken random) device) (drawnToken random)
              device).send writer .sync .login
              (loginBodyOs2 keys.secret (freshKey random).publicKey (drawnToken random) device)
              false)
            (restOfRandom random) := by
  rw [openOs2, drawnToken, freshKey, restOfRandom]
  rcases random.draw tokenSize with ⟨own, afterToken⟩
  dsimp only
  rcases PrivateKey.generate afterToken with ⟨fresh, afterKey⟩
  rfl

/-- A login of the second generation is sent in plain, unless the device's key is no point of the
curve. -/
theorem offer_openOs2 {d : Dialogue} {keys : DeviceKeys} (hlogin : d.login = .os2 (some keys))
    (writer : Fragment.Writer) (random : RandomSource) (device : Token) :
    (d.openOs2 writer random keys device).offer =
      match (freshKey random).sharedKey keys.publicKey with
      | .error _ => ⟨[], none⟩
      | .ok _ =>
          Fragment.offer writer (Fragment.split false
            (loginRequestOs2 keys.secret (freshKey random).publicKey (drawnToken random) device)) := by
  obtain ⟨model, channel, login⟩ := d
  obtain rfl : login = .os2 (some keys) := hlogin
  rw [openOs2_eq]
  cases (freshKey random).sharedKey keys.publicKey <;> rfl

/-- Of what a client sends when it hears the device's first message, everything belongs to its
login, which is sent in plain. -/
theorem offer_onInitial (d : Dialogue) (writer : Fragment.Writer) (random : RandomSource)
    (body : Bytes) :
    (d.onInitial writer random body).offer =
      match d.loginMessage? random body with
      | some message => Fragment.offer writer (Fragment.split false message)
      | none => ⟨[], none⟩ := by
  obtain ⟨model, channel, login⟩ := d
  unfold onInitial loginMessage?
  split
  · rfl
  · rcases login with keys | ⟨secret, setting, status⟩
    · rcases keys with _ | keys
      · rfl
      · refine (offer_openOs2 rfl writer random (Octets.ofBytes tokenSize body)).trans ?_
        dsimp only
        cases (freshKey random).sharedKey keys.publicKey <;> rfl
    · rcases secret with _ | secret <;> rfl

/-- A login in plain is offered to the link; if a fragment of it is refused, the connection ends. -/
theorem ofSent_send_plain (d : Dialogue) (writer : Fragment.Writer) (op : OpCode) (item : ItemCode)
    (body : Bytes) (random : RandomSource) :
    Opening.ofSent (d.send writer op item body false) random =
      { dialogue := d
        random := random
        offer := Fragment.offer writer (Fragment.split false (d.head op item ++ body))
        events :=
          if (Fragment.offer writer (Fragment.split false
            (d.head op item ++ body))).refused.isSome then [.disconnect]
          else [.state .authenticating] } := by
  simp only [Opening.ofSent, send, Channel.send, Channel.sendPacket, Bool.false_eq_true, if_false]
  cases (Fragment.offer writer (Fragment.split false (d.head op item ++ body))).refused <;> rfl

/-- A login of the second generation is given up before anything is sent, if the device's key is no
point of the curve; or the session key is installed and the login is offered to the link. -/
theorem openOs2_cases (d : Dialogue) (writer : Fragment.Writer) (random : RandomSource)
    (keys : DeviceKeys) (device : Token) :
    let opening := d.openOs2 writer random keys device
    (∃ error, (freshKey random).sharedKey keys.publicKey = .error error ∧
      opening.events = [.disconnect]) ∨
    ∃ shared, (freshKey random).sharedKey keys.publicKey = .ok shared ∧
      opening.dialogue =
        d.keyed (sessionKeyOs2 shared (drawnToken random) device) (drawnToken random) device ∧
      opening.events =
        if opening.offer.refused.isSome then [.disconnect] else [.state .authenticating] := by
  rw [openOs2_eq]
  cases (freshKey random).sharedKey keys.publicKey with
  | error error => exact .inl ⟨error, rfl, rfl⟩
  | ok shared =>
      dsimp only
      rw [ofSent_send_plain]
      exact .inr ⟨shared, rfl, rfl, rfl⟩

/-- In the third generation the session key is installed and the login is offered to the link. -/
theorem openOs3_installs (d : Dialogue) (writer : Fragment.Writer) (random : RandomSource)
    (secret : Key) (device : Token) :
    let opening := d.openOs3 writer random secret device
    opening.dialogue = d.keyed (sessionKeyOs3 secret device) (Octets.zero 4) device ∧
      opening.events =
        if opening.offer.refused.isSome then [.disconnect] else [.state .authenticating] := by
  rw [openOs3]
  dsimp only
  rw [ofSent_send_plain]
  exact ⟨rfl, rfl⟩

/-- With the device's first message the connection ends, and nothing is sent; or the session key is
installed and the login is offered to the link. -/
theorem onInitial_cases (d : Dialogue) (writer : Fragment.Writer) (random : RandomSource)
    (body : Bytes) :
    let opening := d.onInitial writer random body
    (d.loginMessage? random body = none ∧ opening.events = [.disconnect]) ∨
    ∃ key own message, tokenSize ≤ body.length ∧ d.loginSession? random body = some (key, own) ∧
      d.loginMessage? random body = some message ∧
      opening.dialogue = d.keyed key own (Octets.ofBytes tokenSize body) ∧
      opening.events =
        if opening.offer.refused.isSome then [.disconnect] else [.state .authenticating] := by
  obtain ⟨model, channel, login⟩ := d
  unfold onInitial loginMessage? loginSession?
  split
  · exact .inl ⟨rfl, rfl⟩
  rename_i hsize
  have hsize := Nat.not_lt.mp hsize
  rcases login with keys | ⟨secret, setting, status⟩
  · rcases keys with _ | keys
    · exact .inl ⟨rfl, rfl⟩
    · dsimp only
      rcases openOs2_cases _ writer random keys (Octets.ofBytes tokenSize body) with
        ⟨error, herror, hevents⟩ | ⟨shared, hshared, hdialogue, hevents⟩
      · rw [herror]
        exact .inl ⟨rfl, hevents⟩
      · rw [hshared]
        exact .inr ⟨_, _, _, hsize, rfl, rfl, hdialogue, hevents⟩
  · rcases secret with _ | secret
    · exact .inl ⟨rfl, rfl⟩
    · obtain ⟨hdialogue, hevents⟩ :=
        openOs3_installs ⟨model, channel, .os3 (some secret) setting status⟩ writer random secret
          (Octets.ofBytes tokenSize body)
      exact .inr ⟨_, _, _, hsize, rfl, rfl, hdialogue, hevents⟩

end Dialogue

end SmartLock
