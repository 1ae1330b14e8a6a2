/-
# A login from end to end

A client that has its secret, and a server that is registered with the same secret: when the client
subscribes, five fragments are exchanged, and each one is answered before the next is due.  The
server tells a token, the client sends the login for it, and the server answers with the acceptance,
the status and the setting.

`login_deliverAll` says that this comes to its end under every schedule, whatever the client has
been through before and whatever other sessions the server has.  While the client reads the answer,
the two ends of the link differ by the messages that are still under way (`Answering`).
-/
import SmartLock.Proofs.Client.LoginSteps
import SmartLock.Proofs.Loopback.Schedules
import SmartLock.Proofs.Server.LoginSteps

namespace SmartLock.Loopback

open Server (placeIn acceptance statusReport settingReport loginMessages)

/-! ## Outputs -/

/-- What is only told is not written. -/
theorem written_of_isTold {outputs : List ClientOutput}
    (h : outputs.all ClientOutput.isTold = true) : written outputs = [] := by
  rw [written, List.filterMap_eq_nil_iff]
  intro output hmem
  have htold := List.all_eq_true.mp h output hmem
  cases output <;> first | rfl | cases htold

/-- A fragment that is written before something is told is all that is written. -/
theorem written_cons_of_isTold (fragment : Bytes) {told : List ClientOutput}
    (h : told.all ClientOutput.isTold = true) :
    written (.write fragment true :: told) = [fragment] := by
  show fragment :: written told = [fragment]
  rw [written_of_isTold h]

/-- What is only told does not close the link. -/
theorem not_mem_of_isTold {outputs : List ClientOutput}
    (h : outputs.all ClientOutput.isTold = true) : .disconnect ∉ outputs :=
  fun hmem => Bool.noConfusion (List.all_eq_true.mp h _ hmem)

/-- Who only writes does not close the link. -/
theorem not_mem_map_write (session id : SessionId) (fragments : List Bytes) :
    ServerOutput.disconnect id ∉ fragments.map (.write session · true) := by
  simp

/-- The server's link takes everything. -/
theorem takes_serverHost (setup : Setup) (outputs : List ServerOutput) (id : SessionId)
    (fragment : Bytes) :
    (serverHost setup.registers setup.handler).takes outputs id fragment = true := rfl

/-! ## The end of a login -/

/-- The client is active, the session runs, the client knows the setting and the status that the
server tells, and both ends of the link have the same key and are in step. -/
structure LoggedIn (model : Model) (mechSetting : SettingOs3) (mechStatus : StatusOs3)
    (l : Loopback) : Prop where
  active : l.client.state = .active
  running : l.server.sessionState? l.session = some .running
  setting : l.client.setting = some (.ofOs3 mechSetting)
  status : Dialogue.statusOs3? model mechStatus.toBytes = some l.client.status
  inStep : ∃ d session, l.client.dialogue = some d ∧ l.server.session? l.session = some session ∧
    d.channel.cipher.key = session.channel.cipher.key ∧
    d.channel.cipher.sendNonce = session.channel.cipher.receiveNonce ∧
    d.channel.cipher.receiveNonce = session.channel.cipher.sendNonce

/-- The session runs, and the client has still to receive these last messages of the answer to its
login.  The server's end of the link is `a` before them. -/
structure Answering (a : Cipher) (d : Dialogue) (ms : List Message) (l : Loopback) : Prop where
  dialogue : l.client.dialogue = some d
  session : ∃ session, l.server.session? l.session = some session ∧ session.state = .running ∧
    session.channel.cipher = a.afterAll ms
  toServer : l.toServer = []
  toClient : l.toClient = a.fragments ms
  hasKey : d.channel.cipher.hasKey = true
  client : d.channel.cipher.role = .central
  server : a.role = .peripheral
  agrees : ∀ direction, a.AgreesOn direction d.channel.cipher

section Answering

variable {setup : Setup} {goal : Loopback → Prop} {a : Cipher} {d : Dialogue} {l : Loopback}

/-- When there is nothing more to receive, nothing is under way. -/
theorem Answering.isQuiet (h : Answering a d [] l) : l.isQuiet = true := by
  rw [isQuiet_iff]
  intro role
  cases role with
  | central => exact h.toClient
  | peripheral => exact h.toServer

/-- When there is nothing more to receive, both ends are in step. -/
theorem Answering.inStep (h : Answering a d [] l) :
    ∃ d session, l.client.dialogue = some d ∧ l.server.session? l.session = some session ∧
      d.channel.cipher.key = session.channel.cipher.key ∧
      d.channel.cipher.sendNonce = session.channel.cipher.receiveNonce ∧
      d.channel.cipher.receiveNonce = session.channel.cipher.sendNonce := by
  obtain ⟨session, hsession, -, rfl⟩ := h.session
  refine ⟨d, session, h.dialogue, hsession, (h.agrees .toCentral).1.symm, ?_, ?_⟩
  · apply Cipher.AgreesOn.sendNonce_eq (h.agrees _).symm
    rw [h.client, h.server]
    rfl
  · symm
    apply Cipher.AgreesOn.sendNonce_eq (h.agrees _)
    rw [h.client, h.server]
    rfl

/-- The next message of the answer is due, and it is received as it was sent. -/
theorem Answering.received {m : Message} {ms : List Message} (h : Answering a d (m :: ms) l)
    (hm : m.IsShort) :
    l.toClient = Fragment.whole m.encrypted (a.pack m).2 :: (a.pack m).1.fragments ms ∧
      (d.channel.receive (Fragment.whole m.encrypted (a.pack m).2)).2 = m.received := by
  obtain ⟨key, hkey⟩ := Option.isSome_iff_exists.mp h.hasKey
  have hagrees := h.agrees d.channel.cipher.role.inward
  constructor
  · rw [h.toClient, Cipher.fragments, Channel.split_pack hkey hagrees hm, List.singleton_append]
  · exact (Channel.receive_pack hkey (by rw [h.client, h.server]; rfl) hagrees hm).1

/-- A message of the answer that the client takes in is followed by the rest of the answer. -/
theorem Answering.leads {m : Message} {ms : List Message} {rest : List Role}
    (h : Answering a d (m :: ms) l) (hm : m.IsShort) {t : ClientTurn}
    (ht : l.client.receive (clientHost setup.observers)
      (Fragment.whole m.encrypted (a.pack m).2) = t) {login : Login}
    (hdialogue : t.client.dialogue =
      some { d.hearing (Fragment.whole m.encrypted (a.pack m).2) with login := login })
    (htold : t.outputs.all ClientOutput.isTold = true)
    (hrest : ∀ l', l'.client = t.client →
      Answering (a.pack m).1
        { d.hearing (Fragment.whole m.encrypted (a.pack m).2) with login := login } ms l' →
      Leads setup goal rest l') :
    Leads setup goal (.central :: rest) l := by
  obtain ⟨key, hkey⟩ := Option.isSome_iff_exists.mp h.hasKey
  have hrole : a.role = d.channel.cipher.role.peer := by rw [h.client, h.server]; rfl
  obtain ⟨hnext, -⟩ := h.received hm
  have hdeliver := deliver_central setup hnext
  dsimp only at hdeliver
  rw [ht, written_of_isTold htold, List.append_nil] at hdeliver
  apply Leads.next
  · rw [inbox, hnext]
    exact List.cons_ne_nil _ _
  · exact h.toServer
  · rw [hdeliver]
    exact ⟨not_mem_of_isTold htold, fun _ => List.not_mem_nil⟩
  · rw [hdeliver]
    refine hrest _ rfl ⟨hdialogue, h.session, h.toServer, rfl, ?_, ?_, ?_, ?_⟩
    · rw [Cipher.hasKey, Dialogue.hearing, Channel.key_receive]
      exact h.hasKey
    · rw [Dialogue.hearing, Channel.role_receive, h.client]
    · rw [Cipher.role_pack, h.server]
    · exact Channel.agreesOn_receive_pack hkey hrole hm h.agrees

end Answering

/-! ## The answer -/

/-- Every device but a bot is told its status as it is. -/
theorem statusOs3?_toBytes {model : Model} (h : model ≠ .sesameBot2) (s : StatusOs3) :
    Dialogue.statusOs3? model s.toBytes = some (.ofOs3 model s) := by
  have hread := s.ofBytes?_toBytes []
  rw [List.append_nil] at hread
  rw [Dialogue.statusOs3?, if_neg h, hread, Option.map_some]

/-- The status that a server tells can be read by a client of every model. -/
theorem exists_statusOs3?_toBytes (model : Model) (s : StatusOs3) :
    ∃ reported, Dialogue.statusOs3? model s.toBytes = some reported := by
  by_cases h : model = .sesameBot2
  · rw [Dialogue.statusOs3?, if_pos h, StatusOs3.toBytes]
    exact ⟨_, rfl⟩
  · exact ⟨_, statusOs3?_toBytes h s⟩

section Answer

variable {setup : Setup} {a : Cipher} {d : Dialogue} {l : Loopback} {station : Station}
  {model : Model} {mechSetting : SettingOs3} {mechStatus : StatusOs3} {secret : Option Key}
  {setting status : Bool}

/-- With the setting the login comes to its end, if the status has come before. -/
theorem leads_setting (h : Answering a d [settingReport station] l)
    (hlogin : d.login = .os3 secret setting true)
    (hstatus : Dialogue.statusOs3? model station.mechStatus.toBytes = some l.client.status) :
    Leads setup (LoggedIn model station.mechSetting station.mechStatus) [.central] l := by
  have hshort : (settingReport station).IsShort :=
    Server.isShort_of_mem_loginMessages station _ (by simp [loginMessages])
  have hread := station.mechSetting.ofBytes?_toBytes []
  rw [List.append_nil] at hread
  obtain ⟨hclient, htold⟩ := Client.receive_setting (clientHost setup.observers) h.dialogue hlogin
    (h.received hshort).2 hread
  refine h.leads hshort rfl (by rw [hclient]; rfl) htold fun l' hl' h' => ?_
  obtain ⟨session, hsession, hrunning, -⟩ := h'.session
  refine .done h'.isQuiet ⟨?_, ?_, ?_, ?_, h'.inStep⟩
  · rw [hl', hclient]
    rfl
  · rw [Server.sessionState?, hsession, Option.map_some, hrunning]
  · rw [hl', hclient]
  · rw [hl', hclient]
    exact hstatus

/-- After the status comes the setting. -/
theorem leads_status (h : Answering a d [statusReport station, settingReport station] l)
    (hmodel : d.model = model) (hlogin : d.login = .os3 secret setting status) :
    Leads setup (LoggedIn model station.mechSetting station.mechStatus) [.central, .central] l := by
  have hshort : (statusReport station).IsShort :=
    Server.isShort_of_mem_loginMessages station _ (by simp [loginMessages])
  obtain ⟨reported, hreported⟩ := exists_statusOs3?_toBytes d.model station.mechStatus
  obtain ⟨hclient, htold⟩ := Client.receive_status (clientHost setup.observers) h.dialogue hlogin
    (h.received hshort).2 hreported
  refine h.leads hshort rfl (by rw [hclient]; rfl) htold fun l' hl' h' => ?_
  refine leads_setting h' rfl ?_
  rw [hl', hclient, ← hmodel]
  exact hreported

/-- After the acceptance come the status and the setting. -/
theorem leads_acceptance (h : Answering a d (loginMessages station) l)
    (hmodel : d.model = model) (hlogin : d.login = .os3 secret setting status) :
    Leads setup (LoggedIn model station.mechSetting station.mechStatus)
      [.central, .central, .central] l := by
  have hshort : (acceptance station).IsShort :=
    Server.isShort_of_mem_loginMessages station _ (by simp [loginMessages])
  have haccepts : d.accepts (Server.loginBody station) = true := by
    rw [Dialogue.accepts, hlogin]
    rfl
  have hreceive := Client.receive_accepted (clientHost setup.observers) h.dialogue hlogin
    (h.received hshort).2 haccepts
  exact h.leads hshort hreceive rfl rfl fun l' hl' h' => leads_status h' hmodel rfl

/-- After the login comes the answer to it. -/
theorem leads_login {session : Session} {key : Key}
    (hsession : l.server.session? l.session = some session)
    (hserver : session.channel.cipher.role = .peripheral)
    (hkey : session.channel.cipher.key = some key) (hdialogue : l.client.dialogue = some d)
    (hclient : d.channel.cipher.role = .central)
    (hagrees : ∀ direction, session.channel.cipher.AgreesOn direction d.channel.cipher)
    (htoServer : l.toServer = [Fragment.whole false (loginRequest key)])
    (htoClient : l.toClient = []) (hmodel : d.model = model)
    (hsetting : l.server.station.mechSetting = mechSetting)
    (hstatus : l.server.station.mechStatus = mechStatus)
    (hlogin : d.login = .os3 secret setting status) :
    Leads setup (LoggedIn model mechSetting mechStatus)
      [.peripheral, .central, .central, .central] l := by
  subst hsetting hstatus
  have hdeliver := deliver_peripheral setup htoServer
  obtain ⟨hrunning, houtputs⟩ := Server.receive_login (takes_serverHost setup) hsession hkey
  dsimp only at hdeliver
  rw [houtputs, writtenTo_map, htoClient, List.nil_append] at hdeliver
  apply Leads.next
  · rw [inbox, htoServer]
    exact List.cons_ne_nil _ _
  · exact htoClient
  · rw [hdeliver]
    exact ⟨List.not_mem_nil, fun id => not_mem_map_write l.session id _⟩
  · rw [hdeliver]
    refine leads_acceptance
      ⟨hdialogue, hrunning, rfl, rfl, ?_, hclient, hserver, hagrees⟩ hmodel hlogin
    rw [Cipher.hasKey, ← (hagrees .toCentral).1, hkey]
    rfl

end Answer

/-! ## From the subscription on -/

/-- A client and a session that install a key for the same token agree in both directions. -/
theorem agreesOn_withKey {c : Channel} (hrole : c.cipher.role = .central)
    (hrule : c.cipher.rule = .os3) (key : Key) (token : Token) (direction : Direction) :
    ((Channel.new .os3 .peripheral).withKey key token (Octets.zero 4)).cipher.AgreesOn direction
      (c.withKey key (Octets.zero 4) token).cipher := by
  let old (role : Role) : Channel := if role = .central then c else Channel.new .os3 .peripheral
  let tokens (role : Role) : Token := if role = .central then Octets.zero 4 else token
  have hold (role : Role) : (old role).cipher.role = role ∧ (old role).cipher.rule = .os3 := by
    cases role with
    | central => exact ⟨hrole, hrule⟩
    | peripheral => exact ⟨rfl, rfl⟩
  exact Duplex.agreesOn_keyed key tokens hold direction .central

section Subscription

variable {d : Dialogue} {secret : Key} {setting status : Bool} {mechSetting : SettingOs3}
  {mechStatus : StatusOs3}

/-- After the token comes the login. -/
theorem leads_token (setup : Setup) {l : Loopback} {session : Session} {token : Token}
    (hd : l.client.dialogue = some d) (hrole : d.channel.cipher.role = .central)
    (hrule : d.channel.cipher.rule = .os3) (hlogin : d.login = .os3 (some secret) setting status)
    (hstate : l.client.state ≠ .authenticating)
    (hsession : l.server.session? l.session = some session)
    (hchannel : session.channel = (Channel.new .os3 .peripheral).withKey
      (Dialogue.sessionKeyOs3 secret token) token (Octets.zero 4))
    (hsetting : l.server.station.mechSetting = mechSetting)
    (hstatus : l.server.station.mechStatus = mechStatus) (htoServer : l.toServer = [])
    (htoClient : l.toClient = [Fragment.whole false (greeting token)]) :
    Leads setup (LoggedIn d.model mechSetting mechStatus)
      [.central, .peripheral, .central, .central, .central] l := by
  have hreceive := d.channel.receive_greeting token
  obtain ⟨hclient, told, houtputs, htold⟩ := Client.receive_initial (clientHost setup.observers) hd
    (fun _ _ => rfl) hstate hlogin (congrArg Prod.snd hreceive)
  have hdeliver := deliver_central setup htoClient
  dsimp only at hdeliver
  rw [houtputs, written_cons_of_isTold _ htold, htoServer, List.nil_append] at hdeliver
  apply Leads.next
  · rw [inbox, htoClient]
    exact List.cons_ne_nil _ _
  · exact htoServer
  · rw [hdeliver]
    exact ⟨by simpa using not_mem_of_isTold htold, fun _ => List.not_mem_nil⟩
  · rw [hdeliver]
    have hagrees := agreesOn_withKey
      (c := (d.channel.receive (Fragment.whole false (greeting token))).1)
      (by rw [Channel.role_receive, hrole]) (by rw [hreceive, hrule])
      (Dialogue.sessionKeyOs3 secret token) token
    rw [← hchannel] at hagrees
    have hdialogue : (l.client.receive (clientHost setup.observers)
        (Fragment.whole false (greeting token))).client.dialogue =
        some ((d.hearing _).keyed (Dialogue.sessionKeyOs3 secret token) (Octets.zero 4) token) :=
      congrArg Client.dialogue hclient
    apply leads_login
    · exact hsession
    · rw [hchannel]
      rfl
    · rw [hchannel]
      rfl
    · exact hdialogue
    · exact (Channel.role_receive ..).trans hrole
    · exact hagrees
    · rfl
    · rfl
    · rfl
    · exact hsetting
    · exact hstatus
    · exact hlogin

/-- A client that subscribes gets a session, and the session's token is under way to it. -/
theorem askServer_subscribed (setup : Setup) (c : Client) {s : Server} {id : SessionId}
    (hstarted : s.station.model.isSome = true) (hregistered : s.station.registered = true)
    (hunused : s.hasSession id = false) (hfree : s.slots.all Option.isSome = false)
    (now : UInt32) :
    let start : Loopback := { client := c, server := s, session := id }
    let token := (s.station.random.draw 4).1
    let session := ((Session.new id token).withSecret s.station.secret).setState .waitingLogin now
    let first := Fragment.whole false (greeting token)
    start.askServer setup (.subscribed id now) =
      ({ start with
          server :=
            ⟨{ s.station with now := now, random := (s.station.random.draw 4).2 },
              placeIn s.slots session⟩
          toClient := [first] },
        [.write id first true], .ok ()) := by
  intro start token session first
  have hstep : s.step (serverHost setup.registers setup.handler) (.subscribed id now) = _ :=
    Server.subscribed_eq (takes_serverHost setup) hstarted hregistered hunused hfree now
  have hwritten : writtenTo id [.write id first true] = [first] := writtenTo_map id [first]
  dsimp only [start, askServer]
  rw [hstep, List.nil_append]
  dsimp only
  rw [hwritten]

/-- When a client subscribes, the deliveries that are due lead to the end of a login. -/
theorem leads_subscribed (setup : Setup) {c : Client} {s : Server} {id : SessionId}
    (hd : c.dialogue = some d) (hrole : d.channel.cipher.role = .central)
    (hrule : d.channel.cipher.rule = .os3) (hlogin : d.login = .os3 (some secret) setting status)
    (hstate : c.state ≠ .authenticating) (hstarted : s.station.model.isSome = true)
    (hregistered : s.station.registered = true) (hsecret : s.station.secret = secret)
    (hunused : s.hasSession id = false) (hfree : s.slots.all Option.isSome = false)
    (now : UInt32) :
    let start : Loopback := { client := c, server := s, session := id }
    let subscribed := start.askServer setup (.subscribed id now)
    Leads setup (LoggedIn d.model s.station.mechSetting s.station.mechStatus)
      [.central, .peripheral, .central, .central, .central] subscribed.1 ∧
    (∀ id, .disconnect id ∉ subscribed.2.1) ∧ subscribed.2.2 = .ok () := by
  intro start subscribed
  subst hsecret
  have hsubscribed : subscribed = _ :=
    askServer_subscribed setup c hstarted hregistered hunused hfree now
  rw [hsubscribed]
  refine ⟨?_, fun id => by simp, rfl⟩
  let session := ((Session.new id (s.station.random.draw 4).1).withSecret
    s.station.secret).setState .waitingLogin now
  have hid : session.id = id := Session.id_setState ..
  apply leads_token setup hd hrole hrule hlogin hstate
  · rw [← hid] at hunused
    have hfound := Server.session?_placeIn s.station hfree hunused
    rw [hid] at hfound
    exact hfound
  · exact Session.channel_setState ..
  · rfl
  · rfl
  · rfl
  · rfl

end Subscription

/-- **A login completes.**  A client of the third generation that is idle or active subscribes to a
started and registered server with the same secret, where it gets a free slot under a number that is
not in use; whatever either of them has been through before, the server takes the subscription.
Then, under every schedule of deliveries:

* neither side closes the link;
* nothing is under way any more exactly if the schedule has delivered the token, the login and the
  three messages of its answer, in this order;
* then the client is active, the session runs, the client has the setting and the status that the
  server tells, and the nonces of both ends are the same crosswise. -/
theorem loggedIn_deliverAll (setup : Setup) {random : RandomSource} {ms : List Client.Moment}
    {d : Dialogue} {secret : Key} {setting status : Bool} {s : Server} {id : SessionId}
    (hd : ((Client.new random).run ms).1.dialogue = some d)
    (hlogin : d.login = .os3 (some secret) setting status)
    (hstate : ((Client.new random).run ms).1.state ≠ .authenticating)
    (hstarted : s.station.model.isSome = true) (hregistered : s.station.registered = true)
    (hsecret : s.station.secret = secret) (hunused : s.hasSession id = false)
    (hfree : s.slots.all Option.isSome = false) (now : UInt32) (schedule : List Role) :
    let start : Loopback := { client := ((Client.new random).run ms).1, server := s, session := id }
    let subscribed := start.askServer setup (.subscribed id now)
    let after := subscribed.1.deliverAll setup schedule
    subscribed.2.2 = .ok () ∧ (∀ id, .disconnect id ∉ subscribed.2.1) ∧ after.Open ∧
      (after.loopback.isQuiet = true ↔
        [Role.central, .peripheral, .central, .central, .central].Sublist schedule) ∧
      (after.loopback.isQuiet = true →
        LoggedIn d.model s.station.mechSetting s.station.mechStatus after.loopback) := by
  intro start subscribed after
  obtain ⟨hrole, hrule⟩ := Client.regular_run random ms (Client.standing?_of_dialogue hd)
  have hos3 : d.channel.cipher.rule = .os3 := by
    rw [show d.channel.cipher.rule = d.login.rule from hrule, hlogin]
    rfl
  obtain ⟨hleads, hkept, hok⟩ := leads_subscribed setup hd hrole hos3 hlogin hstate hstarted
    hregistered hsecret hunused hfree now
  exact ⟨hok, hkept, hleads.deliverAll schedule⟩

/-- A server with one free slot that has been registered with the secret of zeros. -/
def registeredServer : Server :=
  { station := { random := RandomSource.ofSeed 4, model := some .sesame5, registered := true }
    slots := [none] }

/-- A client that is active from an earlier connection logs in again. -/
theorem loggedIn_plainRun :
    let start : Loopback :=
      { client := ((Client.new (RandomSource.ofSeed 3)).run Client.plainRun).1
        server := registeredServer
        session := 1 }
    let after := (start.askServer {} (.subscribed 1 0)).1.deliverAll {}
      [.central, .peripheral, .peripheral, .central, .central, .central]
    start.client.state = .active ∧ after.loopback.isQuiet = true ∧
      LoggedIn .sesame5 {} {} after.loopback := by
  intro start after
  have hactive : start.client.state = .active := by decide +kernel
  have hmodel : start.client.dialogue.map Dialogue.model = some .sesame5 := by decide +kernel
  have hlogins : start.client.dialogue.map Dialogue.login =
      some (.os3 (some (Octets.zero 16)) true true) := by decide +kernel
  obtain ⟨d, hd, hlogin⟩ := Option.map_eq_some_iff.mp hlogins
  rw [hd, Option.map_some, Option.some_inj] at hmodel
  have hunused : registeredServer.hasSession 1 = false := by decide
  obtain ⟨-, -, -, hquiet, hgoal⟩ := loggedIn_deliverAll {} hd hlogin
    (by rw [hactive]; decide) rfl rfl rfl hunused (by decide) 0
    [.central, .peripheral, .peripheral, .central, .central, .central]
  have hdone : after.loopback.isQuiet = true := hquiet.mpr (by decide)
  exact ⟨hactive, hdone, hmodel ▸ hgoal hdone⟩

end SmartLock.Loopback
