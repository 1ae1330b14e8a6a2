/-
# Servers with partial access

What a server does with a fragment, built from accesses that may fail: to the table of slots, to
the payloads of registrations, logins and commands, and to the answers that it lays out.  None of
them fails once the numbers of the sessions are different, as they are in every run
(`Server.receiveAllChecked_eq`).  With what is known of clients and of tags, no access to a message
that comes in is out of range (`accesses_inRange`).
-/
import SmartLock.Proofs.Bounds.Client
import SmartLock.Proofs.Server.Numbers

namespace SmartLock

/-! ## Keys -/

namespace Station

/-- The public key of the server, from its encoding. -/
def publicKeyChecked (s : Station) : Option (Except CryptoError PublicKey) :=
  match s.keys with
  | none => some (.error .noKeypair)
  | some k => do return .ok (← k.publicKeyChecked)

/-- The secret that the server shares with the owner of a public key, copied to an array. -/
def deriveSecretChecked (s : Station) (peer : PublicKey) : Option (Except CryptoError Key) :=
  match s.keys with
  | none => some (.error .noKeypair)
  | some k => k.sharedKeyChecked peer

/-- No access to the public key fails. -/
@[simp] theorem publicKeyChecked_eq (s : Station) : s.publicKeyChecked = some s.publicKey := by
  rw [publicKeyChecked, publicKey]
  cases s.keys <;> simp

/-- No access to the shared secret fails. -/
@[simp] theorem deriveSecretChecked_eq (s : Station) (peer : PublicKey) :
    s.deriveSecretChecked peer = some (s.deriveSecret peer) := by
  rw [deriveSecretChecked, deriveSecret]
  cases s.keys <;> simp

end Station

/-- The session with its key under a secret. -/
def Session.withSecretChecked (s : Session) (secret : Key) : Option Session := do
  return { s with
    channel := ← s.channel.withKeyChecked (s.keyUnder secret) s.nonce (Octets.zero 4) }

/-- Every secret gives a session its key. -/
@[simp] theorem Session.withSecretChecked_eq (s : Session) (secret : Key) :
    s.withSecretChecked secret = some (s.withSecret secret) := by
  simp [withSecretChecked, withSecret]

namespace Server

/-! ## Answers -/

/-- Sends a message of a server. -/
def Turn.notifyChecked (host : ServerHost) (t : Turn) (op : OpCode) (item : ItemCode)
    (body : Bytes) (encrypted : Bool) : Option Turn := do
  let id := t.session.id
  let writer : Fragment.Writer := fun taken fragment =>
    host.takes (t.outputs ++ taken.reverse.map (.write id · true)) id fragment
  let sent ← t.session.channel.sendChecked writer (op.code :: item.code :: body) encrypted
  return {
    station := t.station
    session := { t.session with channel := sent.channel }
    outputs := t.outputs ++ writes id sent.offer
    result := sent.result.mapError .link }

/-- The body of the answer to a registration. -/
def registrationBodyChecked (station : Station) (key : PublicKey) : Option Bytes := do
  let status ← station.mechStatus.toBytesChecked
  let setting ← station.mechSetting.toBytesChecked
  return ResultCode.success.code :: status ++ setting ++ key.toBytes

/-- The body of the answer to a login: five bytes, of which the last four get the time. -/
def loginBodyChecked (station : Station) : Option Bytes := do
  let body ← (Octets.ofBytes 5 [ResultCode.success.code]).copy? 1 5
    (writeUInt32 station.currentTime)
  return body.toBytes

section Answers

variable (station : Station)

/-- No access while a message of a server is sent fails. -/
@[simp] theorem Turn.notifyChecked_eq (host : ServerHost) (t : Turn) (op : OpCode)
    (item : ItemCode) (body : Bytes) (encrypted : Bool) :
    t.notifyChecked host op item body encrypted =
      some (t.notify host op item body encrypted) := by
  simp [notifyChecked, notify]

/-- No access to the answer to a registration fails. -/
@[simp] theorem registrationBodyChecked_eq (key : PublicKey) :
    registrationBodyChecked station key = some (registrationBody station key) := by
  simp [registrationBodyChecked, registrationBody]

/-- No access to the answer to a login fails. -/
@[simp] theorem loginBodyChecked_eq :
    loginBodyChecked station = some (loginBody station) := by
  have htime : (Octets.ofBytes 5 [ResultCode.success.code]).copy? 1 5
        (writeUInt32 station.currentTime) =
      some (Octets.ofBytes 5 (loginBody station)) :=
    Octets.copy?_ofBytes rfl (by simp) (Nat.le_refl 5)
  rw [loginBodyChecked, htime, Option.bind_eq_bind, Option.bind_some,
    Octets.toBytes_ofBytes (by simp [loginBody])]
  rfl

end Answers

/-! ## Messages -/

/-- The registration of a new owner.  The time of the owner is read for the log. -/
def onRegistrationChecked (host : ServerHost) (t : Turn) (payload : Bytes) : Option Turn := do
  if payload.length ≠ registrationSize then
    return t.fail (.payloadLength .registration payload.length)
  else if t.station.registered then return t.fail .alreadyRegistered
  else if !host.registers then return t.fail .noRegistrationCallback
  else
    let peer ← Octets.copyOf? 64 (← payload.front? 64)
    let _ ← payload.each? 64 4
    match ← t.station.deriveSecretChecked peer, ← t.station.publicKeyChecked with
    | .error error, _ => return t.fail (.crypto error)
    | _, .error error => return t.fail (.crypto error)
    | .ok secret, .ok key =>
        let session ← t.session.withSecretChecked secret
        let keyed : Turn :=
          { t with station := { t.station with secret := secret }, session := session }
        let body ← registrationBodyChecked keyed.station key
        let told ← keyed.notifyChecked host .response .registration body false
        return told.andThen fun t =>
          let registered : Turn := { t with station := { t.station with registered := true } }
          let running := registered.setState .running
          { running with outputs := running.outputs ++ [.registered t.session.id secret] }

/-- The login of a central. -/
def onLoginChecked (host : ServerHost) (t : Turn) (payload : Bytes) : Option Turn := do
  if payload.length ≠ Cipher.codeSize then
    return t.fail (.payloadLength .login payload.length)
  else if !t.session.channel.cipher.hasKey then return t.fail .keyNotShared
  else if !(← t.session.channel.cipher.verifyCodeChecked payload) then
    return t.drop.fail .authenticationFailed
  else
    let answered ← t.notifyChecked host .response .login (← loginBodyChecked t.station) true
    match answered.result with
    | .error _ => return answered
    | .ok () =>
        let running := answered.setState .running
        let status ← answered.station.mechStatus.toBytesChecked
        let told ← running.notifyChecked host .publish .mechStatus status true
        let setting ← answered.station.mechSetting.toBytesChecked
        let told ← told.notifyChecked host .publish .mechSetting setting true
        return { told with result := .ok () }

/-- The tag and the trigger of a command with a non-empty payload. -/
def readTagChecked (size : Nat) (payload : Bytes) : Option (String × Option TriggerType) := do
  if 0 < size then return (Utf8.decodeLossy (← payload.slice? 1 (size + 1)), none)
  else
    match ← Tag.parseTriggerChecked payload with
    | some (trigger, id) => return (id, trigger)
    | none => return ("", none)

/-- A command of a central. -/
def onCommandChecked (host : ServerHost) (t : Turn) (item : ItemCode) (payload : Bytes) :
    Option Turn := do
  if t.session.state ≠ .running then return t.fail (.notRunning t.session.id)
  else
    match payload.head? with
    | none => return t.fail (.payloadLength item 0)
    | some size =>
        if payload.length < size.toNat + 1 then
          return t.fail (.payloadLength item payload.length)
        else
          let (tag, trigger) ← readTagChecked size.toNat payload
          match host.handler with
          | some handler =>
              let result := handler t.session.id item tag trigger
              let told : Turn :=
                { t with outputs := t.outputs ++ [.command t.session.id item tag trigger] }
              told.notifyChecked host .response item [result.code] true
          | none => t.notifyChecked host .response item [ResultCode.notSupported.code] true

/-- A whole message of a central. -/
def onMessageChecked (host : ServerHost) (t : Turn) : Bytes → Option Turn
  | [] => some t
  | code :: payload =>
      match ItemCode.ofCode? code with
      | some .registration => onRegistrationChecked host t payload
      | some .login => onLoginChecked host t payload
      | some .lock => onCommandChecked host t .lock payload
      | some .unlock => onCommandChecked host t .unlock payload
      | some .doorOpen => onCommandChecked host t .doorOpen payload
      | some .doorClosed => onCommandChecked host t .doorClosed payload
      | _ => some t

section Messages

variable (host : ServerHost) (t : Turn) (payload : Bytes)

/-- No access to a registration fails. -/
@[simp] theorem onRegistrationChecked_eq :
    onRegistrationChecked host t payload = some (onRegistration host t payload) := by
  rw [onRegistrationChecked, onRegistration]
  split
  · rfl
  · rename_i hsize
    have hlength : payload.length = 68 := not_not.mp hsize
    split
    · rfl
    · split
      · rfl
      · have hfront : payload.front? 64 = some (payload.take 64) := Bytes.front?_eq (by omega)
        have hpeer : Octets.copyOf? 64 (payload.take 64) = some (Octets.ofBytes 64 payload) := by
          rw [Octets.copyOf?_eq (by simp; omega), Octets.ofBytes_take (by omega)]
        have htime : payload.each? 64 4 = some ((payload.drop 64).take 4) :=
          Bytes.each?_eq (by omega)
        simp only [hfront, hpeer, htime, Station.deriveSecretChecked_eq,
          Station.publicKeyChecked_eq, Option.bind_eq_bind, Option.bind_some]
        cases t.station.deriveSecret (Octets.ofBytes 64 payload) with
        | error error => rfl
        | ok secret =>
            cases t.station.publicKey with
            | error error => rfl
            | ok key => simp

/-- No access to a login fails. -/
@[simp] theorem onLoginChecked_eq :
    onLoginChecked host t payload = some (onLogin host t payload) := by
  rw [onLoginChecked, onLogin]
  split
  · rfl
  · split
    · rfl
    · rw [Cipher.verifyCodeChecked_eq, Option.bind_eq_bind, Option.bind_some]
      split
      · rfl
      · simp only [loginBodyChecked_eq, Turn.notifyChecked_eq, StatusOs3.toBytesChecked_eq,
          SettingOs3.toBytesChecked_eq, Option.bind_eq_bind, Option.bind_some, Turn.andThen]
        generalize t.notify host .response .login (loginBody t.station) true = answered
        cases answered.result <;> rfl

/-- A tag that its length byte announces is there. -/
theorem readTagChecked_eq {size : Nat} (h : size + 1 ≤ payload.length) :
    readTagChecked size payload = some (readTag size payload) := by
  rw [readTagChecked, readTag]
  split
  · rw [Bytes.slice?_eq (by omega) h, List.drop_take]
    rfl
  · rw [Tag.parseTriggerChecked_eq]
    cases Tag.parseTrigger? payload <;> rfl

/-- No access to a command fails. -/
@[simp] theorem onCommandChecked_eq (item : ItemCode) :
    onCommandChecked host t item payload = some (onCommand host t item payload) := by
  unfold onCommandChecked onCommand
  split
  · rfl
  · cases payload with
    | nil => rfl
    | cons size rest =>
        dsimp only [List.head?_cons]
        split
        · rfl
        · rename_i hsize
          rw [readTagChecked_eq _ (Nat.not_lt.mp hsize), Option.bind_eq_bind, Option.bind_some]
          cases host.handler <;> simp

/-- No access to a message fails. -/
@[simp] theorem onMessageChecked_eq (message : Bytes) :
    onMessageChecked host t message = some (onMessage host t message) := by
  cases message with
  | nil => rfl
  | cons code payload =>
      simp only [onMessageChecked, onMessage, onRegistrationChecked_eq, onLoginChecked_eq,
        onCommandChecked_eq]
      cases ItemCode.ofCode? code with
      | none => rfl
      | some item => cases item <;> rfl

end Messages

/-! ## Slots -/

/-- The place of the session with a given number in the table. -/
def slotOf? (s : Server) (id : SessionId) : Option Nat :=
  s.slots.findIdx? fun slot => slot.any (·.id = id)

/-- The table with a session at a place. -/
def setSlot? (slots : List (Option Session)) (i : Nat) (new : Session) :
    Option (List (Option Session)) :=
  if i < slots.length then some (slots.set i (some new)) else none

/-- The number of a session in the table is one of the numbers in use. -/
theorem id_mem_ids {station : Station} {slots : List (Option Session)} {session : Session}
    (h : some session ∈ slots) : session.id ∈ ids ⟨station, slots⟩ :=
  List.mem_map_of_mem (mem_sessions.mpr h)

/-- Without a session of its number there is no place. -/
theorem slotOf?_of_session?_eq_none {s : Server} {id : SessionId} (h : s.session? id = none) :
    s.slotOf? id = none := by
  refine List.findIdx?_eq_none_iff.mpr fun slot hslot => ?_
  cases slot with
  | none => rfl
  | some session =>
      have hid : session.id ≠ id := by
        rintro rfl
        exact session?_eq_none_iff.mp h (id_mem_ids hslot)
      simpa using hid

/-- The place of a session is where it is. -/
theorem exists_slotOf? {s : Server} {id : SessionId} {session : Session}
    (h : s.session? id = some session) :
    ∃ i, s.slotOf? id = some i ∧ s.slots[i]? = some (some session) := by
  rw [session?, sessions, List.find?_filterMap] at h
  obtain ⟨slot, hslot, hsession⟩ := Option.bind_eq_some_iff.mp h
  rw [List.find?_eq_getElem?_findIdx] at hslot
  obtain ⟨hlt, -⟩ := List.getElem?_eq_some_iff.mp hslot
  have hat := hslot.trans (congrArg some hsession)
  exact ⟨_, List.findIdx?_eq_some_iff_findIdx_eq.mpr ⟨hlt, rfl⟩, hat⟩

/-- A session whose number is not in use takes nobody's place. -/
theorem replaceIn_of_not_mem {station : Station} {slots : List (Option Session)} {new : Session}
    (h : new.id ∉ ids ⟨station, slots⟩) : replaceIn slots new = slots := by
  refine (List.map_congr_left fun slot hslot => ?_).trans (List.map_id slots)
  cases slot with
  | none => rfl
  | some old =>
      have hold : old.id ≠ new.id := fun hid => h (hid ▸ id_mem_ids hslot)
      simp [hold]

/-- With different numbers, the session that is replaced is the one at its place. -/
theorem setSlot?_eq {station : Station} {slots : List (Option Session)}
    (hids : (ids ⟨station, slots⟩).Nodup) {i : Nat} {old new : Session}
    (hold : slots[i]? = some (some old)) (hid : new.id = old.id) :
    setSlot? slots i new = some (replaceIn slots new) := by
  obtain ⟨hlt, -⟩ := List.getElem?_eq_some_iff.mp hold
  rw [setSlot?, if_pos hlt, Option.some.injEq]
  clear hlt
  induction slots generalizing i with
  | nil => cases hold
  | cons slot rest ih =>
      cases slot with
      | none =>
          cases i with
          | zero => cases hold
          | succ i => exact congrArg (none :: ·) (ih hids hold)
      | some first =>
          obtain ⟨hfirst, hrest⟩ := List.nodup_cons.mp hids
          cases i with
          | zero =>
              obtain rfl : first = old := by simpa using hold
              have hnew : new.id ∉ ids ⟨station, rest⟩ := hid ▸ hfirst
              simpa [replaceIn, hid] using (replaceIn_of_not_mem hnew).symm
          | succ i =>
              have hold' : rest[i]? = some (some old) := hold
              have hlater : old.id ∈ ids ⟨station, rest⟩ :=
                id_mem_ids (List.mem_of_getElem? hold')
              have hdiffers : first.id ≠ new.id := fun heq =>
                hfirst (heq.trans hid ▸ hlater)
              simpa [replaceIn, hdiffers] using ih hrest hold'

/-! ## Fragments -/

/-- A fragment from a central, as its session takes it. -/
def onFragmentChecked (host : ServerHost) (station : Station) (session : Session)
    (fragment : Bytes) : Option Turn := do
  let (channel, received) ← session.channel.receiveChecked fragment
  let t : Turn := { station := station, session := { session with channel := channel } }
  match received with
  | .complete message _ => onMessageChecked host t message
  | .skipping true => return t.drop.fail .authenticationFailed
  | _ => return t

/-- A fragment from the central with a given number: its session is taken from its slot and put
back there. -/
def receiveChecked (host : ServerHost) (s : Server) (id : SessionId) (fragment : Bytes) :
    Option Outcome := do
  match s.slotOf? id with
  | none => return ⟨s, [], .error (.unknownSession id)⟩
  | some i =>
      match ← s.slots[i]? with
      | none => return ⟨s, [], .error (.unknownSession id)⟩
      | some session =>
          let t ← onFragmentChecked host s.station session fragment
          return ⟨⟨t.station, ← setSlot? s.slots i t.session⟩, t.outputs, t.result⟩

/-- Fragments from centrals, each with the surroundings in which it comes and the number of its
central. -/
def receiveAllChecked (s : Server) : List (ServerHost × SessionId × Bytes) →
    Option (Server × List ServerOutput)
  | [] => some (s, [])
  | (host, id, fragment) :: rest => do
      let outcome ← receiveChecked host s id fragment
      let (last, outputs) ← receiveAllChecked outcome.server rest
      return (last, outcome.outputs ++ outputs)

/-- No access of a session to its fragment fails. -/
@[simp] theorem onFragmentChecked_eq (host : ServerHost) (station : Station) (session : Session)
    (fragment : Bytes) :
    onFragmentChecked host station session fragment =
      some (onFragment host station session fragment) := by
  rw [onFragmentChecked, onFragment, Channel.receiveChecked_eq, Option.bind_eq_bind,
    Option.bind_some]
  rcases session.channel.receive fragment with ⟨channel, received⟩
  cases received with
  | complete message authenticated => exact onMessageChecked_eq ..
  | skipping forged => cases forged <;> rfl
  | _ => rfl

/-- No access to the table fails, and the session is put back where the server has it. -/
theorem receiveChecked_eq {s : Server} (h : s.ids.Nodup) (host : ServerHost) (id : SessionId)
    (fragment : Bytes) : receiveChecked host s id fragment = some (receive host s id fragment) := by
  rw [receiveChecked, receive]
  cases hsession : s.session? id with
  | none =>
      rw [slotOf?_of_session?_eq_none hsession]
      rfl
  | some session =>
      obtain ⟨i, hslot, hat⟩ := exists_slotOf? hsession
      have hset := setSlot?_eq h hat
        (id_onFragment host s.station session fragment)
      simp only [hslot, hat, onFragmentChecked_eq, hset, Option.bind_eq_bind, Option.bind_some]
      rfl

/-- **No access to the centrals' fragments fails**, whatever state they find a server in whose
sessions have different numbers. -/
theorem receiveAllChecked_eq {s : Server} (h : s.ids.Nodup)
    (arrivals : List (ServerHost × SessionId × Bytes)) :
    s.receiveAllChecked arrivals =
      some (s.run (arrivals.map fun (host, id, fragment) => ⟨host, .receive id fragment⟩)) := by
  induction arrivals generalizing s with
  | nil => rfl
  | cons first rest ih =>
      obtain ⟨host, id, fragment⟩ := first
      have hnext : (receive host s id fragment).server.ids.Nodup :=
        nodup_ids_step h host (.receive id fragment)
      rw [receiveAllChecked, receiveChecked_eq h, Option.bind_eq_bind, Option.bind_some, ih hnext]
      rfl

end Server

/-! ## Both parties -/

/-- **No access to what comes in is out of range.**  Whatever state a client is in, it takes any
fragments without an access that fails, and so does a server in every state that it can reach; and
every tag is laid out in its field. -/
theorem accesses_inRange :
    (∀ (c : Client) (fragments : List (ClientHost × Bytes)),
      c.receiveAllChecked fragments =
        some (c.run (fragments.map fun (host, fragment) => ⟨host, .receive fragment⟩))) ∧
    (∀ (random : RandomSource) (maxSessions : Nat) (ms : List Server.Moment)
      (arrivals : List (ServerHost × SessionId × Bytes)),
      let s := ((Server.new random maxSessions).run ms).1
      s.receiveAllChecked arrivals =
        some (s.run (arrivals.map fun (host, id, fragment) => ⟨host, .receive id fragment⟩))) ∧
    ∀ (d : Dialogue) (model : Model) (tag : String),
      d.tagFieldChecked model tag = some (d.tagField model tag) := by
  refine ⟨Client.receiveAllChecked_eq, ?_, Dialogue.tagFieldChecked_eq⟩
  intro random maxSessions ms arrivals
  exact Server.receiveAllChecked_eq (Server.nodup_ids_run random maxSessions ms) arrivals

end SmartLock
