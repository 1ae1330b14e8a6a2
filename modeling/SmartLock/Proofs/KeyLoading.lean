/-
# Keys are loaded whole

A client is given the keys of its device as bytes or as hexadecimal digits, and a server its private
key as bytes.  Either everything that the device needs is replaced at once, or the keys are refused
and nothing changes (`Client.Loads`, `Server.LoadsKey`): there is no public key without the secret
that came with it.  `keys_loaded_whole` says so for every client and every server, whatever is
given.
-/
import SmartLock.Client.Commands
import SmartLock.Server.Operations

namespace SmartLock

/-! ## Keys of a client -/

/-- The keys of a device that a client holds. -/
structure HeldKeys where
  publicKey : Option PublicKey := none
  secret : Option Key := none
  deriving DecidableEq, Repr, Inhabited

namespace Login

/-- The keys that a login holds. -/
def held : Login → HeldKeys
  | .os2 keys => ⟨keys.map DeviceKeys.publicKey, keys.map DeviceKeys.secret⟩
  | .os3 secret _ _ => ⟨none, secret⟩

/-- The login without its keys. -/
def withoutKeys : Login → Login
  | .os2 _ => .os2 none
  | .os3 _ setting status => .os3 none setting status

end Login

namespace Client

/-- The keys that a client holds. -/
def held (c : Client) : HeldKeys := (c.dialogue.map fun d => d.login.held).getD {}

/-- The client without its keys. -/
def withoutKeys (c : Client) : Client :=
  { c with dialogue := c.dialogue.map fun d => { d with login := d.login.withoutKeys } }

/-- Whether the device has a public key that the client has to know. -/
def needsPublicKey (c : Client) : Bool := c.dialogue.any fun d => d.osVersion = .os2

end Client

/-- The keys that a device needs, out of those that are given: the second generation needs a public
key that writes a point of the curve, the third ignores it. -/
def Dialogue.needed? (d : Dialogue) (publicKey : Option PublicKey) (secret : Key) :
    Option HeldKeys :=
  match d.login with
  | .os2 _ => (publicKey.filter (·.point?.isSome)).map fun key => ⟨some key, some secret⟩
  | .os3 .. => some ⟨none, some secret⟩

namespace Client

/-- The keys that the device of a client needs; none as long as there is no device. -/
def needed? (c : Client) (publicKey : Option PublicKey) (secret : Key) : Option HeldKeys :=
  c.dialogue.bind (·.needed? publicKey secret)

/-- The digits write the keys, as far as the device needs them. -/
structure DigitsWrite (c : Client) (publicKeyDigits secretDigits : String)
    (publicKey : Option PublicKey) (secret : Key) : Prop where
  secret : Hex.decodeExact 16 secretDigits = .ok secret
  publicKey : c.needsPublicKey = true →
    ∃ key, publicKey = some key ∧ Hex.decodeExact 64 publicKeyDigits = .ok key

/-- What comes of keys that are given to a client. -/
inductive Loads (c : Client) (outcome : ClientOutcome) : Option HeldKeys → Prop
  /-- They are held, all of them, and nothing else has changed. -/
  | replaced (keys : HeldKeys) (hresult : outcome.result = .ok ()) (houtputs : outcome.outputs = [])
      (hheld : outcome.client.held = keys) (hkeys : outcome.client.hasKeys = true)
      (hrest : outcome.client.withoutKeys = c.withoutKeys) : Loads c outcome (some keys)
  /-- They are refused, and nothing has changed. -/
  | refused (error : ClientError) (hresult : outcome.result = .error error)
      (houtputs : outcome.outputs = []) (hclient : outcome.client = c) : Loads c outcome none

/-- What comes of keys that are given to a client as digits: what comes of the keys that they write,
and if they write none, a refusal. -/
inductive LoadsHex (c : Client) (host : ClientHost) (publicKeyDigits secretDigits : String) : Prop
  | written (publicKey : Option PublicKey) (secret : Key)
      (hwrite : c.DigitsWrite publicKeyDigits secretDigits publicKey secret)
      (hsame : c.step host (.setKeysHex publicKeyDigits secretDigits) =
        c.step host (.setKeys publicKey secret))
      (hloads : c.Loads (c.step host (.setKeysHex publicKeyDigits secretDigits))
        (c.needed? publicKey secret))
  | unwritten (hnone : ∀ publicKey secret,
        ¬ c.DigitsWrite publicKeyDigits secretDigits publicKey secret)
      (hloads : c.Loads (c.step host (.setKeysHex publicKeyDigits secretDigits)) none)

end Client

/-! ## Conversations -/

namespace Dialogue

variable {d : Dialogue} {publicKey : Option PublicKey} {secret : Key}

/-- Keys that are as needed take the place of those of the login. -/
theorem setKeys_of_needed? {keys : HeldKeys} (h : d.needed? publicKey secret = some keys) :
    ∃ login, d.setKeys publicKey secret = .ok { d with login := login } ∧ login.held = keys ∧
      ({ d with login := login } : Dialogue).hasKeys = true ∧
      login.withoutKeys = d.login.withoutKeys := by
  obtain ⟨model, channel, login⟩ := d
  cases login with
  | os2 old =>
      obtain ⟨key, hkey, hkeys⟩ := Option.map_eq_some_iff.mp h
      obtain ⟨rfl, hpoint⟩ := Option.filter_eq_some_iff.mp hkey
      refine ⟨.os2 (some ⟨key, secret⟩), ?_, hkeys, rfl, rfl⟩
      simp only [setKeys, PublicKey.check, if_pos hpoint]
  | os3 old setting status =>
      exact ⟨.os3 (some secret) setting status, rfl, Option.some.inj h, rfl, rfl⟩

/-- Other keys are an error. -/
theorem setKeys_of_needed?_eq_none (h : d.needed? publicKey secret = none) :
    ∃ error, d.setKeys publicKey secret = .error error := by
  obtain ⟨model, channel, login⟩ := d
  cases login with
  | os2 old =>
      cases publicKey with
      | none => exact ⟨.publicKeyRequired, rfl⟩
      | some key =>
          have hpoint : ¬ key.point?.isSome = true := by
            intro hpoint
            have hfilter : (some key).filter (·.point?.isSome) = some key :=
              Option.filter_some_pos hpoint
            simp only [needed?, hfilter, Option.map_some] at h
            cases h
          exact ⟨.crypto .invalidPublicKey, by simp only [setKeys, PublicKey.check, if_neg hpoint]⟩
  | os3 old setting status => cases h

/-- The third generation ignores the public key. -/
theorem setKeys_of_ne_os2 (h : d.osVersion ≠ .os2) (publicKey' : Option PublicKey) :
    d.setKeys publicKey secret = d.setKeys publicKey' secret := by
  obtain ⟨model, channel, login⟩ := d
  cases login with
  | os2 old => exact absurd rfl h
  | os3 old setting status => rfl

/-- Digits have the effect of the keys that they write. -/
theorem setKeysHex_eq {publicKeyDigits secretDigits : String}
    (hsecret : Hex.decodeExact 16 secretDigits = .ok secret)
    (hkey : d.osVersion = .os2 →
      ∃ key, publicKey = some key ∧ Hex.decodeExact 64 publicKeyDigits = .ok key) :
    d.setKeysHex publicKeyDigits secretDigits = d.setKeys publicKey secret := by
  unfold setKeysHex
  rw [hsecret]
  dsimp only
  split
  · rename_i old hlogin
    obtain ⟨key, rfl, hread⟩ := hkey (by rw [osVersion, hlogin])
    rw [hread]
  · rename_i old setting status hlogin
    exact setKeys_of_ne_os2 (by rw [osVersion, hlogin]; simp) publicKey

/-- Without the digits of a secret, or of a public key where it is needed, there is an error. -/
theorem setKeysHex_error {publicKeyDigits secretDigits : String}
    (h : ∀ publicKey secret, Hex.decodeExact 16 secretDigits = .ok secret →
      ¬ (d.osVersion = .os2 →
        ∃ key, publicKey = some key ∧ Hex.decodeExact 64 publicKeyDigits = .ok key)) :
    ∃ error, d.setKeysHex publicKeyDigits secretDigits = .error error := by
  cases hsecret : Hex.decodeExact 16 secretDigits with
  | error error => exact ⟨.invalidKeyFormat error, by rw [setKeysHex, hsecret]⟩
  | ok secret =>
      have hos2 : d.osVersion = .os2 := by
        by_cases hos2 : d.osVersion = .os2
        · exact hos2
        · exact absurd (fun hos2' => absurd hos2' hos2) (h none secret hsecret)
      cases hkey : Hex.decodeExact 64 publicKeyDigits with
      | ok key => exact absurd (fun _ => ⟨key, rfl, hkey⟩) (h (some key) secret hsecret)
      | error error =>
          refine ⟨.invalidKeyFormat error, ?_⟩
          obtain ⟨model, channel, login⟩ := d
          cases login with
          | os2 old => simp only [setKeysHex, hsecret, hkey]
          | os3 old setting status => cases hos2

end Dialogue

/-! ## Clients -/

namespace Client

section Steps

variable (c : Client) (host : ClientHost)

/-- Keys that are given as bytes. -/
theorem loads_setKeys (publicKey : Option PublicKey) (secret : Key) :
    c.Loads (c.step host (.setKeys publicKey secret)) (c.needed? publicKey secret) := by
  cases hd : c.dialogue with
  | none =>
      have hneeded : c.needed? publicKey secret = none := by rw [needed?, hd, Option.bind_none]
      rw [hneeded]
      refine .refused .notInitialized ?_ ?_ ?_ <;> rw [step, setKeys, hd] <;> rfl
  | some d =>
      have hneeded : c.needed? publicKey secret = d.needed? publicKey secret := by
        rw [needed?, hd, Option.bind_some]
      rw [hneeded]
      cases hkeys : d.needed? publicKey secret with
      | none =>
          obtain ⟨error, herror⟩ := Dialogue.setKeys_of_needed?_eq_none hkeys
          have hstep : c.step host (.setKeys publicKey secret) = c.refuse (.dialogue error) := by
            rw [step, setKeys, hd]
            dsimp only
            rw [herror]
            rfl
          rw [hstep]
          exact .refused (.dialogue error) rfl rfl rfl
      | some keys =>
          obtain ⟨login, hset, hheld, hhas, hrest⟩ := Dialogue.setKeys_of_needed? hkeys
          have hstep : c.step host (.setKeys publicKey secret) =
              ⟨c.withDialogue { d with login := login }, [], .ok ()⟩ := by
            rw [step, setKeys, hd]
            dsimp only
            rw [hset]
            rfl
          rw [hstep]
          refine .replaced keys rfl rfl hheld hhas ?_
          simp only [withoutKeys, withDialogue, hd, Option.map_some, hrest]

variable {c} in
/-- Whether there is a public key to know is a matter of the generation. -/
theorem needsPublicKey_of_dialogue {d : Dialogue} (hd : c.dialogue = some d) :
    c.needsPublicKey = true ↔ d.osVersion = .os2 := by
  simp [needsPublicKey, hd]

variable {c} in
/-- Digits have the effect of the keys that they write. -/
theorem step_setKeysHex {publicKeyDigits secretDigits : String} {publicKey : Option PublicKey}
    {secret : Key} (h : c.DigitsWrite publicKeyDigits secretDigits publicKey secret) :
    c.step host (.setKeysHex publicKeyDigits secretDigits) =
      c.step host (.setKeys publicKey secret) := by
  rw [step, step, setKeysHex, setKeys]
  cases hd : c.dialogue with
  | none => rfl
  | some d =>
      have hkey := fun hos2 => h.publicKey ((needsPublicKey_of_dialogue hd).mpr hos2)
      dsimp only
      rw [Dialogue.setKeysHex_eq h.secret hkey]

/-- Keys that are given as digits. -/
theorem loadsHex_setKeysHex (publicKeyDigits secretDigits : String) :
    c.LoadsHex host publicKeyDigits secretDigits := by
  by_cases hwritten : ∃ publicKey secret,
      c.DigitsWrite publicKeyDigits secretDigits publicKey secret
  · obtain ⟨publicKey, secret, hwrite⟩ := hwritten
    have hsame := step_setKeysHex host hwrite
    exact .written publicKey secret hwrite hsame (hsame ▸ c.loads_setKeys host publicKey secret)
  · have hnone : ∀ publicKey secret,
        ¬ c.DigitsWrite publicKeyDigits secretDigits publicKey secret :=
      fun publicKey secret hwrite => hwritten ⟨publicKey, secret, hwrite⟩
    refine .unwritten hnone ?_
    cases hd : c.dialogue with
    | none => refine .refused .notInitialized ?_ ?_ ?_ <;> rw [step, setKeysHex, hd] <;> rfl
    | some d =>
        have hunread : ∀ publicKey secret, Hex.decodeExact 16 secretDigits = .ok secret →
            ¬ (d.osVersion = .os2 →
              ∃ key, publicKey = some key ∧ Hex.decodeExact 64 publicKeyDigits = .ok key) :=
          fun publicKey secret hsecret hkey => hnone publicKey secret
            ⟨hsecret, fun hneeds => hkey ((needsPublicKey_of_dialogue hd).mp hneeds)⟩
        obtain ⟨error, herror⟩ := Dialogue.setKeysHex_error hunread
        have hstep : c.step host (.setKeysHex publicKeyDigits secretDigits) =
            c.refuse (.dialogue error) := by
          rw [step, setKeysHex, hd]
          dsimp only
          rw [herror]
          rfl
        rw [hstep]
        exact .refused (.dialogue error) rfl rfl rfl

end Steps

/-- A client loads its keys all at once or not at all. -/
structure LoadsKeysWhole (c : Client) (host : ClientHost) : Prop where
  /-- Keys that are given as bytes are held, as far as the device needs them, or refused. -/
  bytes : ∀ publicKey secret,
    c.Loads (c.step host (.setKeys publicKey secret)) (c.needed? publicKey secret)
  /-- Keys that are given as digits are those that the digits write. -/
  hex : ∀ publicKeyDigits secretDigits, c.LoadsHex host publicKeyDigits secretDigits
  /-- They are held exactly if the digits that the device needs write keys, and the public key, if
  it is one of them, is a point of the curve. -/
  hex_ok_iff : c.dialogue.isSome = true → ∀ publicKeyDigits secretDigits,
    ((c.step host (.setKeysHex publicKeyDigits secretDigits)).result = .ok () ↔
      ∃ publicKey secret, c.DigitsWrite publicKeyDigits secretDigits publicKey secret ∧
        (c.needsPublicKey = true → ∃ key, publicKey = some key ∧ key.point?.isSome = true))
  /-- A public key that the device does not need makes no difference. -/
  ignored : c.needsPublicKey = false → ∀ publicKey publicKey' secret,
    c.step host (.setKeys publicKey secret) = c.step host (.setKeys publicKey' secret)
  /-- Neither do its digits. -/
  ignoredHex : c.needsPublicKey = false → ∀ publicKeyDigits publicKeyDigits' secretDigits,
    c.step host (.setKeysHex publicKeyDigits secretDigits) =
      c.step host (.setKeysHex publicKeyDigits' secretDigits)

/-- Which keys there are to be held. -/
theorem isSome_needed?_iff {c : Client} (hbegun : c.dialogue.isSome = true)
    (publicKey : Option PublicKey) (secret : Key) :
    (c.needed? publicKey secret).isSome = true ↔
      (c.needsPublicKey = true → ∃ key, publicKey = some key ∧ key.point?.isSome = true) := by
  obtain ⟨d, hd⟩ := Option.isSome_iff_exists.mp hbegun
  rw [needed?, hd, Option.bind_some, needsPublicKey_of_dialogue hd]
  obtain ⟨model, channel, login⟩ := d
  cases login with
  | os2 old =>
      have hos2 : (Dialogue.mk model channel (.os2 old)).osVersion = .os2 := rfl
      simp only [Dialogue.needed?, Option.isSome_map, hos2, true_imp_iff]
      cases publicKey <;> simp [Option.isSome_filter]
  | os3 old setting status => exact iff_of_true rfl fun hos2 => by cases hos2

/-- The keys are held exactly if there are such. -/
theorem Loads.ok_iff {c : Client} {outcome : ClientOutcome} {keys? : Option HeldKeys}
    (h : c.Loads outcome keys?) : outcome.result = .ok () ↔ keys?.isSome = true := by
  cases h with
  | replaced keys hresult => exact iff_of_true hresult rfl
  | refused error hresult => exact iff_of_false (by simp [hresult]) (by simp)

/-- A client loads its keys whole. -/
theorem loadsKeysWhole (c : Client) (host : ClientHost) : c.LoadsKeysWhole host := by
  have hignored (hnone : c.needsPublicKey = false) (publicKey publicKey' : Option PublicKey)
      (secret : Key) :
      c.step host (.setKeys publicKey secret) = c.step host (.setKeys publicKey' secret) := by
    rw [step, step, setKeys, setKeys]
    cases hd : c.dialogue with
    | none => rfl
    | some d =>
        have hos2 : d.osVersion ≠ .os2 := by
          intro hos2
          rw [(needsPublicKey_of_dialogue hd).mpr hos2] at hnone
          cases hnone
        dsimp only
        rw [Dialogue.setKeys_of_ne_os2 hos2]
  constructor
  · exact c.loads_setKeys host
  · exact c.loadsHex_setKeysHex host
  · intro hbegun publicKeyDigits secretDigits
    constructor
    · intro hok
      cases c.loadsHex_setKeysHex host publicKeyDigits secretDigits with
      | written publicKey secret hwrite _ hloads =>
          exact ⟨publicKey, secret, hwrite,
            (isSome_needed?_iff hbegun publicKey secret).mp (hloads.ok_iff.mp hok)⟩
      | unwritten _ hloads => cases hloads.ok_iff.mp hok
    · rintro ⟨publicKey, secret, hwrite, hpoint⟩
      rw [step_setKeysHex host hwrite]
      exact (c.loads_setKeys host publicKey secret).ok_iff.mpr
        ((isSome_needed?_iff hbegun publicKey secret).mpr hpoint)
  · exact hignored
  · intro hnone publicKeyDigits publicKeyDigits' secretDigits
    cases hsecret : Hex.decodeExact 16 secretDigits with
    | ok secret =>
        have hwrite (digits : String) : c.DigitsWrite digits secretDigits none secret :=
          ⟨hsecret, fun hneeds => by rw [hnone] at hneeds; cases hneeds⟩
        rw [step_setKeysHex host (hwrite _), step_setKeysHex host (hwrite _)]
    | error error => simp only [step, setKeysHex, Dialogue.setKeysHex, hsecret]

end Client

/-! ## Servers -/

namespace Server

/-- What comes of a private key that is given to a server. -/
inductive LoadsKey (s : Server) (key : Octets 32) (outcome : Outcome) : Prop
  /-- It is the key pair of the server with the public key that belongs to it, and nothing else has
  changed. -/
  | replaced (k : PrivateKey) (hfactor : k.factor = ofBigEndian key.toBytes)
      (hresult : outcome.result = .ok ()) (houtputs : outcome.outputs = [])
      (hserver : outcome.server = s.modifyStation fun station => { station with keys := some k })
      (hexport : outcome.server.exportKeys = .ok (k.publicKey, key))
  /-- It is zero or not below the order of the curve, and nothing has changed. -/
  | refused (hrange : ¬ (0 < ofBigEndian key.toBytes ∧ ofBigEndian key.toBytes < Curve.order))
      (hresult : outcome.result = .error (.crypto .invalidPrivateKey))
      (houtputs : outcome.outputs = []) (hserver : outcome.server = s)

/-- A private key that is given to a server. -/
theorem loadsKey (s : Server) (host : ServerHost) (key : Octets 32) :
    s.LoadsKey key (s.step host (.loadKey key)) := by
  by_cases hrange : 0 < ofBigEndian key.toBytes ∧ ofBigEndian key.toBytes < Curve.order
  · let k : PrivateKey := ⟨ofBigEndian key.toBytes, hrange.1, hrange.2⟩
    have hstep : s.step host (.loadKey key) =
        ⟨s.modifyStation fun station => { station with keys := some k }, [], .ok ()⟩ := by
      rw [step, loadKey, PrivateKey.ofBytes?, dif_pos hrange]
    have hwritten : k.toOctets = key := by
      have hbytes := bigEndian_ofBigEndian key.toBytes
      rw [key.length_toBytes] at hbytes
      rw [PrivateKey.toOctets, hbytes, Octets.ofBytes_toBytes]
    rw [hstep]
    refine .replaced k rfl rfl rfl rfl ?_
    show Except.ok (k.publicKey, k.toOctets) = _
    rw [hwritten]
  · have hstep : s.step host (.loadKey key) = ⟨s, [], .error (.crypto .invalidPrivateKey)⟩ := by
      rw [step, loadKey, PrivateKey.ofBytes?, dif_neg hrange]
    rw [hstep]
    exact .refused hrange rfl rfl rfl

end Server

/-! ## Both sides -/

/-- **Keys are loaded whole**, by every client and every server.  When keys are refused, everything
is as it was; when they are not, all that the device needs is replaced together, and nothing else.
The third generation ignores the public key; digits have the effect of the keys that they write. -/
theorem keys_loaded_whole (c : Client) (clientHost : ClientHost) (s : Server)
    (serverHost : ServerHost) :
    c.LoadsKeysWhole clientHost ∧ ∀ key, s.LoadsKey key (s.step serverHost (.loadKey key)) :=
  ⟨c.loadsKeysWhole clientHost, s.loadsKey serverHost⟩

/-- A secret that comes with the public key of no point does not take the place of the old one. -/
example :
    let host : ClientHost := { takes := fun _ _ => true, observers := {} }
    let c := ((Client.new (RandomSource.ofSeed 1)).run [⟨host, .begin .sesame4⟩,
      ⟨host, .setKeys (some PrivateKey.one.publicKey) (Octets.zero 16)⟩]).1
    (c.step host (.setKeys (some (Octets.zero 64)) (Octets.ofBytes 16 [1, 2, 3]))).client.held =
      ⟨some PrivateKey.one.publicKey, some (Octets.zero 16)⟩ := by
  decide +kernel

end SmartLock
