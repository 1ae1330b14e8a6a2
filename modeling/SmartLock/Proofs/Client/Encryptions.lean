/-
# Under which keys and nonces a client encrypts

For every message that a client encrypts in a run, `Client.encryptions` notes key, nonce and message
together with what the client has put out: the fragments of the packet that AES-CCM makes of them.

In the third generation the session key follows from the secret and the token that the device sends
at the beginning of a login, and the commands are numbered from zero on in every login.  So two
commands are encrypted under the same key and the same nonce exactly if they have the same token and
the same number, modulo the period (`Client.key_nonce_eq_iff_run`).  Within one login that does not
happen before the period is over.  It does when a device sends a token again:
`Client.not_forall_encryptions_nodup`.
-/
import SmartLock.Proofs.Client.Writes
import SmartLock.Proofs.Text.Utf8

namespace SmartLock.Client

/-! ## Logins and encryptions of a run -/

/-- The device's token, if a login begins with this moment. -/
def opening? (c : Client) (m : Moment) : Option Token :=
  if c.state ≠ .authenticating ∧ (c.step m.host m.request).client.state = .authenticating then
    match m.request, c.dialogue with
    | .receive fragment, some d =>
        match (d.channel.receive fragment).2 with
        | .complete (_ :: _ :: body) _ => some (Octets.ofBytes Dialogue.tokenSize body)
        | _ => none
    | _, _ => none
  else none

/-- How far a run has come: how many logins have begun, the device's token in the last of them, and
how many commands have been encrypted since. -/
structure Epoch where
  login : Nat := 0
  token : Token := Octets.zero 4
  number : Nat := 0
  deriving DecidableEq

/-- One moment further. -/
def Epoch.next (e : Epoch) (c : Client) (m : Moment) : Epoch :=
  match c.opening? m with
  | some token => ⟨e.login + 1, token, 0⟩
  | none => if (c.encryption? m).isSome then { e with number := e.number + 1 } else e

/-- A command that has been encrypted: when, to which writer its packet has been offered, and what
the client has put out at that moment. -/
structure Encryption extends Sealing where
  epoch : Epoch
  writer : Fragment.Writer
  outputs : List ClientOutput

/-- The encryptions of a run from a given epoch on. -/
def encryptionsFrom (c : Client) (e : Epoch) : List Moment → List Encryption
  | [] => []
  | m :: rest =>
      ((c.encryption? m).map fun x =>
        { x with
          epoch := e
          writer := linkWriter m.host
          outputs := (c.step m.host m.request).outputs }).toList ++
        (c.step m.host m.request).client.encryptionsFrom (e.next c m) rest

/-- The encryptions of a run. -/
def encryptions (c : Client) (ms : List Moment) : List Encryption := c.encryptionsFrom {} ms

/-- Whether a request keeps to the third generation and to this secret. -/
def Request.keeps (secret : Key) : Request → Bool
  | .begin model => Dialogue.generation? model ≠ some .os2
  | request => request.secret?.all (· = secret)

/-- What keeps to a secret sets no other. -/
theorem Request.secret_of_keeps {secret key : Key} {request : Request}
    (hkeeps : request.keeps secret = true) (h : request.secret? = some key) : key = secret := by
  cases request with
  | begin model => cases h
  | _ =>
      rw [keeps, h] at hkeeps
      · exact of_decide_eq_true hkeeps
      · simp

/-! ## Packets -/

/-- The head of a message has at most two bytes. -/
theorem length_head_le (d : Dialogue) (op : OpCode) (item : ItemCode) :
    (d.head op item).length ≤ 2 := by
  unfold Dialogue.head
  split
  · exact Nat.le_refl 2
  · exact Nat.le_succ 1

/-- The field of a text tag is short. -/
theorem length_tagField_le (d : Dialogue) (tag : String) :
    (d.tagField d.model tag).length ≤ 30 := by
  have hmax : d.maxTagSize ≤ 29 := by
    unfold Dialogue.maxTagSize
    split <;> decide
  have htext : (Utf8.bytesOf (if d.model = .sesameBot2 then "" else
      Utf8.truncate tag d.maxTagSize)).length ≤ 29 := by
    split
    · simp [Utf8.bytesOf, Utf8.encode]
    · exact Nat.le_trans (Utf8.length_bytesOf_truncate_le ..) hmax
  have hsize (size : Nat) (h : size ≤ 29) : d.tagFieldSize size ≤ 30 := by
    unfold Dialogue.tagFieldSize
    split
    · decide
    · omega
  have hfield := hsize _ htext
  simp only [Dialogue.tagField, Tag.textField, List.length_append, List.length_cons,
    List.length_replicate]
  omega

/-- So is every command. -/
theorem Request.length_message_le (d : Dialogue) (request : Request) :
    (request.message d).length ≤ 32 := by
  have hhead := length_head_le d
  have htagged (item : ItemCode) (tag : String) : (tagged d item tag).length ≤ 32 := by
    rw [tagged, List.length_append]
    exact Nat.add_le_add (hhead ..) (length_tagField_le d tag)
  have hbody (op : OpCode) (item : ItemCode) (body : Bytes) (h : body.length ≤ 30) :
      (d.head op item ++ body).length ≤ 32 := by
    rw [List.length_append]
    exact Nat.add_le_add (hhead ..) h
  have htrigger (trigger : TriggerType) (id : Octets 16) :
      (Tag.triggerField trigger id).length ≤ 30 := by
    simp [Tag.triggerField, id.length_toBytes]
  cases request with
  | unlock tag => exact htagged ..
  | lock tag => exact htagged ..
  | click tag => exact htagged ..
  | clickScript script =>
      by_cases hbot : d.model = .sesameBot
      · have hmessage : message d (.clickScript script) = tagged d (scriptItem script) "" :=
          if_pos hbot
        exact hmessage ▸ htagged ..
      · have hmessage : message d (.clickScript script) = d.head .async .click ++ script.toList :=
          if_neg hbot
        have hscript : script.toList.length ≤ 30 := by cases script <;> simp
        exact hmessage ▸ hbody _ _ _ hscript
  | lockWithTrigger trigger id => exact hbody _ _ _ (htrigger ..)
  | unlockWithTrigger trigger id => exact hbody _ _ _ (htrigger ..)
  | requestHistory => exact hbody _ _ _ (by decide)
  | requestStatus => exact Nat.le_trans (hhead ..) (by decide)
  | _ => exact Nat.zero_le 32

/-- What a client encrypts is put out as the packet of the message under the key and the nonce. -/
theorem exists_packet_of_encryption {c : Client} {m : Moment} {x : Sealing}
    (h : c.encryption? m = some x) : ∃ packet,
      Ccm.encrypt? x.key x.nonce Cipher.associated x.message = some packet ∧
      (c.step m.host m.request).outputs =
        ClientTurn.writes (Fragment.offer (linkWriter m.host) (Fragment.split true packet)) := by
  obtain ⟨d, -, -, -, heq⟩ := of_encryption? h
  have hlength : x.message.length ≤ Ccm.maxLength := by
    rw [heq]
    exact Nat.le_trans (m.request.length_message_le d) (by decide)
  obtain ⟨packet, hpacket⟩ := Cipher.exists_encrypt? x.key x.nonce Cipher.associated hlength
  refine ⟨packet, hpacket, ?_⟩
  rw [outputs_of_encryption h, hpacket, Fragment.offerSealed]

/-- When a client encrypts nothing, it writes nothing or a message in plain. -/
theorem writes_of_encryption?_eq_none {c : Client} {m : Moment} (h : c.encryption? m = none) :
    writes (c.step m.host m.request).outputs = [] ∨
      ∃ message, writes (c.step m.host m.request).outputs =
        ClientTurn.writes (Fragment.offer (linkWriter m.host) (Fragment.split false message)) := by
  generalize hwrites : writes (c.step m.host m.request).outputs = outputs
  cases hwrites ▸ writes_step c m with
  | nothing => exact .inl rfl
  | login d body message => exact .inr ⟨message, rfl⟩
  | command x hencryption => cases h.symm.trans hencryption

/-! ## Steps -/

/-- The conversation is of the third generation with no other secret, and its session is the one of
this epoch. -/
structure Fits (secret : Key) (e : Epoch) (s : Dialogue.Standing) : Prop where
  role : s.role = .central
  rule : s.rule = .os3
  login : ∃ held setting status, s.login = .os3 held setting status ∧ ∀ k ∈ held, k = secret
  session : ∀ key sending, s.session = some (key, sending) →
    key = Dialogue.sessionKeyOs3 secret e.token ∧ sending = .numbered e.token e.number

/-- What has been reported so far does not matter for keys and nonces. -/
theorem Fits.report {secret : Key} {e : Epoch} {s : Dialogue.Standing} (h : Fits secret e s)
    {held : Option Key} {setting status : Bool} (hlogin : s.login = .os3 held setting status)
    (setting' status' : Bool) : Fits secret e { s with login := .os3 held setting' status' } := by
  obtain ⟨held', oldSetting, oldStatus, hold, hheld⟩ := h.login
  cases hlogin.symm.trans hold
  exact ⟨h.role, h.rule, ⟨held, setting', status', rfl, hheld⟩, h.session⟩

/-- A login begins only when a client becomes authenticating. -/
theorem opening?_eq_none {c : Client} {m : Moment}
    (h : (c.step m.host m.request).client.state = .authenticating → c.state = .authenticating) :
    c.opening? m = none := by
  unfold opening?
  split
  · rename_i hopens
    exact absurd (h hopens.2) hopens.1
  · rfl

/-- A client that hears the device's first message and becomes authenticating begins a login with
the token in it. -/
theorem opening?_of_hears {c : Client} {m : Moment} {d : Dialogue} {op : OpCode} {item : ItemCode}
    {body : Bytes} (hhears : c.Hears m d op item body) (hold : c.state ≠ .authenticating)
    (hnew : (c.step m.host m.request).client.state = .authenticating) :
    c.opening? m = some (Octets.ofBytes Dialogue.tokenSize body) := by
  obtain ⟨fragment, authenticated, hrequest, hd, hreceived⟩ := hhears
  unfold opening?
  rw [if_pos ⟨hold, hnew⟩, hrequest, hd]
  simp only [hreceived]
  rfl

section Steps

variable {secret : Key} {c : Client} {e : Epoch} {m : Moment}
  (h : ∀ s, c.standing? = some s → Fits secret e s)

include h

/-- A command is encrypted under the key and the number of the epoch. -/
theorem encryption?_of_fits {x : Sealing} (he : c.encryption? m = some x) :
    x.key = Dialogue.sessionKeyOs3 secret e.token ∧ x.nonce = Nonces.numbered e.token e.number := by
  obtain ⟨d, hd, hkey, hnonce, -⟩ := step_of_encryption he
  obtain ⟨hsecret, hsending⟩ := (h _ (standing?_of_dialogue hd)).session x.key
    d.channel.cipher.sending (by rw [Dialogue.standing, Cipher.session?, hkey]; rfl)
  exact ⟨hsecret, by rw [← hnonce, ← Cipher.nonce_sending, hsending]; rfl⟩

/-- A command that is encrypted takes its number. -/
theorem fits_of_encryption (he : (c.encryption? m).isSome = true) {s : Dialogue.Standing}
    (hs : (c.step m.host m.request).client.standing? = some s) : Fits secret (e.next c m) s := by
  obtain ⟨x, hused⟩ := Option.isSome_iff_exists.mp he
  obtain ⟨d, hd, hkey, -, hstate, hstanding⟩ := step_of_encryption hused
  have hnext : e.next c m = { e with number := e.number + 1 } := by
    rw [Epoch.next, opening?_eq_none (fun hnew => hstate ▸ hnew)]
    simp only [he, if_true]
  obtain rfl := Option.some.inj (hs.symm.trans hstanding)
  have hfits := h _ (standing?_of_dialogue hd)
  obtain ⟨hsecret, hsending⟩ := hfits.session x.key d.channel.cipher.sending
    (by rw [Dialogue.standing, Cipher.session?, hkey]; rfl)
  rw [hnext]
  refine ⟨hfits.role, hfits.rule, hfits.login, fun k sending hsession => ?_⟩
  cases hsession
  refine ⟨hsecret, ?_⟩
  rw [Cipher.sending_advanceSend, hsending, show d.channel.cipher.rule = .os3 from hfits.rule,
    NonceState.advance_numbered]

/-- A login that begins has its own epoch. -/
theorem fits_of_opening {d : Dialogue} {body : Bytes} {key : Key} {own : Token}
    (hhears : c.Hears m d .publish .initial body) (hold : c.state ≠ .authenticating)
    (hderives : d.Derives (Octets.ofBytes Dialogue.tokenSize body) key own)
    (hstate : (c.step m.host m.request).client.state = .authenticating) :
    Fits secret (e.next c m)
      (d.keyed key own (Octets.ofBytes Dialogue.tokenSize body)).standing := by
  have hnext : e.next c m = ⟨e.login + 1, Octets.ofBytes Dialogue.tokenSize body, 0⟩ := by
    rw [Epoch.next, opening?_of_hears hhears hold hstate]
  have hfits := h _ hhears.standing?
  obtain ⟨held, setting, status, hlogin, hheld⟩ := hfits.login
  unfold Dialogue.Derives at hderives
  rw [show d.login = .os3 held setting status from hlogin] at hderives
  obtain ⟨k, rfl, rfl, rfl⟩ := hderives
  obtain rfl := hheld k rfl
  have hnumbered := Cipher.numbered_withKey (show d.channel.cipher.rule = .os3 from hfits.rule)
    (Dialogue.sessionKeyOs3 k (Octets.ofBytes Dialogue.tokenSize body)) (Octets.zero 4)
    (Octets.ofBytes Dialogue.tokenSize body)
  rw [show d.channel.cipher.role = .central from hfits.role] at hnumbered
  rw [hnext]
  refine ⟨hfits.role, hfits.rule, ⟨_, _, _, hlogin, hheld⟩, fun key sending hsession => ?_⟩
  cases hsession
  exact ⟨rfl, hnumbered.sending⟩

/-- A step leads to the next epoch. -/
theorem fits_step (hkeeps : m.request.keeps secret = true) {s : Dialogue.Standing}
    (hs : (c.step m.host m.request).client.standing? = some s) : Fits secret (e.next c m) s := by
  by_cases he : (c.encryption? m).isSome = true
  · exact fits_of_encryption h he hs
  -- Everything else but the beginning of a login stays in the epoch.
  have hstay (hstate : (c.step m.host m.request).client.state = .authenticating →
      c.state = .authenticating) : e.next c m = e := by
    rw [Epoch.next, opening?_eq_none hstate]
    simp only [he, Bool.false_eq_true, if_false]
  cases effect_step c m with
  | keep hstate hstanding =>
      rw [hstay (hstate ▸ id)]
      exact h s (hstanding.symm.trans hs)
  | begin model d hrequest hd hstate hstanding =>
      rw [hstay (fun hnew => by simp [hstate] at hnew)]
      obtain rfl := Option.some.inj (hs.symm.trans hstanding)
      rcases Dialogue.standing_of_ofModel? hd with ⟨hos2, -⟩ | ⟨-, hnew⟩
      · simp [hrequest, Request.keeps, hos2] at hkeeps
      · rw [hnew]
        exact ⟨rfl, rfl, ⟨none, false, false, rfl, fun _ hk => by cases hk⟩,
          fun _ _ hsession => by cases hsession⟩
  | drop hstate hstanding =>
      rw [hstay (fun hnew => by simp [hstate] at hnew)]
      obtain ⟨old, hold, rfl⟩ := Option.map_eq_some_iff.mp (hstanding.symm.trans hs)
      have hfits := h old hold
      exact ⟨hfits.role, hfits.rule, hfits.login, fun _ _ hsession => by cases hsession⟩
  | setKeysOs2 d old new hd hlogin hstate hstanding =>
      obtain ⟨held, setting, status, hos3, -⟩ := (h _ (standing?_of_dialogue hd)).login
      cases hlogin.symm.trans hos3
  | setKeysOs3 d old new setting status hrequest hd hlogin hstate hstanding =>
      rw [hstay (hstate ▸ id)]
      obtain rfl := Option.some.inj (hs.symm.trans hstanding)
      have hfits := h _ (standing?_of_dialogue hd)
      obtain rfl := Request.secret_of_keeps hkeeps hrequest
      exact ⟨hfits.role, hfits.rule,
        ⟨some new, setting, status, rfl, fun k hk => (Option.some.inj hk).symm⟩, hfits.session⟩
  | encrypt d key hencryption => exact absurd hencryption he
  | opening d body key own hhears hold hderives hstate hstanding =>
      obtain rfl := Option.some.inj (hs.symm.trans hstanding)
      exact fits_of_opening h hhears hold hderives hstate
  | accept d body hhears haccepts hstate hstanding =>
      rw [hstay fun hnew => authenticating_of_ite (hstate.symm.trans hnew)]
      obtain rfl := Option.some.inj (hs.symm.trans hstanding)
      have hfits := h _ hhears.standing?
      obtain ⟨held, setting, status, hlogin, -⟩ := hfits.login
      have haccepted : d.accepted.login = .os3 held (!d.model.hasSetting) false := by
        rw [Dialogue.accepted, show d.login = .os3 held setting status from hlogin]
      rw [Dialogue.standing_accepted, haccepted]
      exact hfits.report hlogin ..
  | setting d body old setting status hhears hreports hlogin hstate hstanding =>
      rw [hstay fun hnew => authenticating_of_ite (hstate.symm.trans hnew)]
      obtain rfl := Option.some.inj (hs.symm.trans hstanding)
      exact (h _ hhears.standing?).report hlogin ..
  | status d body old setting status hhears hreports hlogin hstate hstanding =>
      rw [hstay fun hnew => authenticating_of_ite (hstate.symm.trans hnew)]
      obtain rfl := Option.some.inj (hs.symm.trans hstanding)
      exact (h _ hhears.standing?).report hlogin ..

end Steps

/-! ## Runs -/

/-- Every encryption of a run is noted at some moment of it. -/
theorem exists_of_mem_encryptionsFrom {c : Client} {e : Epoch} {ms : List Moment} {x : Encryption}
    (hx : x ∈ c.encryptionsFrom e ms) : ∃ before m after, ms = before ++ m :: after ∧
      (c.run before).1.encryption? m = some x.toSealing ∧ x.writer = linkWriter m.host ∧
      x.outputs = ((c.run before).1.step m.host m.request).outputs := by
  induction ms generalizing c e with
  | nil => cases hx
  | cons m rest ih =>
      rw [encryptionsFrom, List.mem_append, Option.mem_toList, Option.map_eq_some_iff] at hx
      rcases hx with ⟨used, hused, rfl⟩ | hx
      · exact ⟨[], m, rest, rfl, hused, rfl, rfl⟩
      · obtain ⟨before, m', after, rfl, hfound⟩ := ih hx
        exact ⟨m :: before, m', after, rfl, hfound⟩

/-- All commands of a run are encrypted under the key and the number of their epochs. -/
theorem forall_mem_encryptionsFrom {secret : Key} {c : Client} {e : Epoch} {ms : List Moment}
    (h : ∀ s, c.standing? = some s → Fits secret e s)
    (hkeeps : ∀ m ∈ ms, m.request.keeps secret = true) :
    ∀ x ∈ c.encryptionsFrom e ms, x.key = Dialogue.sessionKeyOs3 secret x.epoch.token ∧
      x.nonce = Nonces.numbered x.epoch.token x.epoch.number := by
  induction ms generalizing c e with
  | nil => exact fun x hx => absurd hx List.not_mem_nil
  | cons m rest ih =>
      intro x hx
      rw [encryptionsFrom, List.mem_append, Option.mem_toList, Option.map_eq_some_iff] at hx
      rcases hx with ⟨used, hused, rfl⟩ | hx
      · exact encryption?_of_fits h hused
      · refine ih (fun s hs => fits_step h ?_ hs) (fun m' hm' => ?_) x hx
        · exact hkeeps m List.mem_cons_self
        · exact hkeeps m' (List.mem_cons_of_mem _ hm')

/-- The one epoch comes before the other: in an earlier login, or in the same one with a lower
number. -/
def Epoch.Before (e e' : Epoch) : Prop :=
  e.login < e'.login ∨ (e.login = e'.login ∧ e.token = e'.token ∧ e.number < e'.number)

theorem Epoch.Before.trans {e e' e'' : Epoch} (h : e.Before e') (h' : e'.Before e'') :
    e.Before e'' := by
  rcases h with h | ⟨h, ht, hn⟩ <;> rcases h' with h' | ⟨h', ht', hn'⟩
  · exact .inl (by omega)
  · exact .inl (by omega)
  · exact .inl (by omega)
  · exact .inr ⟨h.trans h', ht.trans ht', by omega⟩

/-- A moment leads to the same or to a later epoch. -/
theorem Epoch.next_eq_or_before (e : Epoch) (c : Client) (m : Moment) :
    e.next c m = e ∨ e.Before (e.next c m) := by
  unfold next
  split
  · exact .inr (.inl (Nat.lt_succ_self _))
  · split
    · exact .inr (.inr ⟨rfl, rfl, Nat.lt_succ_self _⟩)
    · exact .inl rfl

/-- An encryption ends its epoch. -/
theorem Epoch.before_next_of_encryption {c : Client} {m : Moment} (e : Epoch)
    (h : (c.encryption? m).isSome = true) : e.Before (e.next c m) := by
  unfold next
  split
  · exact .inl (Nat.lt_succ_self _)
  · rw [if_pos h]
    exact .inr ⟨rfl, rfl, Nat.lt_succ_self _⟩

/-- No epoch comes again. -/
theorem epoch_of_mem_encryptionsFrom {c : Client} {e : Epoch} {ms : List Moment} :
    ∀ x ∈ c.encryptionsFrom e ms, x.epoch = e ∨ e.Before x.epoch := by
  induction ms generalizing c e with
  | nil => exact fun x hx => absurd hx List.not_mem_nil
  | cons m rest ih =>
      intro x hx
      rw [encryptionsFrom, List.mem_append, Option.mem_toList, Option.map_eq_some_iff] at hx
      rcases hx with ⟨used, -, rfl⟩ | hx
      · exact .inl rfl
      · rcases ih x hx with heq | hbefore <;> rcases e.next_eq_or_before c m with hsame | hnext
        · exact .inl (heq.trans hsame)
        · exact .inr (heq ▸ hnext)
        · exact .inr (hsame ▸ hbefore)
        · exact .inr (hnext.trans hbefore)

/-- The encryptions of a run come one after the other. -/
theorem pairwise_encryptionsFrom (c : Client) (e : Epoch) (ms : List Moment) :
    (c.encryptionsFrom e ms).Pairwise fun x y => x.epoch.Before y.epoch := by
  induction ms generalizing c e with
  | nil => exact .nil
  | cons m rest ih =>
      rw [encryptionsFrom]
      cases hused : c.encryption? m with
      | none => exact ih ..
      | some used =>
          have hnext : e.Before (e.next c m) := e.before_next_of_encryption (by rw [hused]; rfl)
          refine List.pairwise_cons.mpr ⟨fun y hy => ?_, ih ..⟩
          rcases epoch_of_mem_encryptionsFrom y hy with heq | hbefore
          · exact heq ▸ hnext
          · exact hnext.trans hbefore

/-- **Keys and nonces of a client.**  In every run of a new client of the third generation that
keeps to one secret, whatever its device sends:

* with every encryption the client puts out the packet that AES-CCM makes of the message under the
  key and the nonce, as far as the link takes it; at all other moments it writes nothing or a message
  in plain;
* every command is encrypted under the key of the token, and under the nonce of the token and the
  number of the command in its login;
* in one login the token is the same, and the numbers grow;
* two commands have the same key and the same nonce exactly if they have the same token and the same
  number modulo the period;
* so no key is used twice with the same nonce if no token comes in two logins and no login goes on
  beyond the period. -/
theorem key_nonce_eq_iff_run (random : RandomSource) {secret : Key} {ms : List Moment}
    (hkeeps : ∀ m ∈ ms, m.request.keeps secret = true) :
    let log := (Client.new random).encryptions ms
    (∀ x ∈ log, ∃ packet, Ccm.encrypt? x.key x.nonce Cipher.associated x.message = some packet ∧
      x.outputs = ClientTurn.writes (Fragment.offer x.writer (Fragment.split true packet))) ∧
    (∀ before m after, ms = before ++ m :: after →
      ((Client.new random).run before).1.encryption? m = none →
      let written := writes (((Client.new random).run before).1.step m.host m.request).outputs
      written = [] ∨ ∃ message, written =
        ClientTurn.writes (Fragment.offer (linkWriter m.host) (Fragment.split false message))) ∧
    (∀ x ∈ log, x.key = Dialogue.sessionKeyOs3 secret x.epoch.token ∧
      x.nonce = Nonces.numbered x.epoch.token x.epoch.number) ∧
    (log.Pairwise fun x y => x.epoch.Before y.epoch) ∧
    (∀ x ∈ log, ∀ y ∈ log, (x.key = y.key ∧ x.nonce = y.nonce) ↔
      x.epoch.token = y.epoch.token ∧
        x.epoch.number % Nonces.period = y.epoch.number % Nonces.period) ∧
    ((∀ x ∈ log, ∀ y ∈ log, x.epoch.token = y.epoch.token → x.epoch.login = y.epoch.login) →
      (∀ x ∈ log, x.epoch.number < Nonces.period) →
        (log.map fun x => (x.key, x.nonce)).Nodup) := by
  intro log
  have hnew : ∀ s, (Client.new random).standing? = some s → Fits secret {} s := fun s hs => by
    cases hs
  have hlog := forall_mem_encryptionsFrom hnew hkeeps
  have hpairwise := pairwise_encryptionsFrom (Client.new random) {} ms
  have hiff (x) (hx : x ∈ log) (y) (hy : y ∈ log) : (x.key = y.key ∧ x.nonce = y.nonce) ↔
      x.epoch.token = y.epoch.token ∧
        x.epoch.number % Nonces.period = y.epoch.number % Nonces.period := by
    obtain ⟨hxkey, hxnonce⟩ := hlog x hx
    obtain ⟨hykey, hynonce⟩ := hlog y hy
    rw [hxkey, hykey, hxnonce, hynonce, Nonces.numbered_eq_numbered_iff]
    exact ⟨And.right, fun h => ⟨by rw [h.1], h⟩⟩
  refine ⟨fun x hx => ?_, fun before m after _ => writes_of_encryption?_eq_none, hlog, hpairwise,
    hiff, fun htokens hfew => ?_⟩
  · obtain ⟨before, m, after, -, hused, hwriter, houtputs⟩ := exists_of_mem_encryptionsFrom hx
    rw [hwriter, houtputs]
    exact exists_packet_of_encryption hused
  refine List.pairwise_map.mpr (hpairwise.imp_of_mem fun {x y} hx hy hbefore heq => ?_)
  obtain ⟨hkey, hnonce⟩ := Prod.ext_iff.mp heq
  obtain ⟨htoken, hnumber⟩ := (hiff x hx y hy).mp ⟨hkey, hnonce⟩
  rw [Nat.mod_eq_of_lt (hfew x hx), Nat.mod_eq_of_lt (hfew y hy)] at hnumber
  have hlogin := htokens x hx y hy htoken
  rcases hbefore with hlt | ⟨-, -, hlt⟩ <;> omega

/-- A device sends its token and goes through the login, all of it in plain. -/
def loginMoments : List Moment :=
  [⟨quietHost, .receive [3, 8, 14, 1, 2, 3, 4]⟩, ⟨quietHost, .receive [3, 7, 2, 0, 0, 0, 0, 0]⟩,
    ⟨quietHost, .receive [3, 8, 80, 0, 0, 0, 0, 0, 0]⟩,
    ⟨quietHost, .receive [3, 8, 81, 0, 0, 0, 0, 0, 0, 0]⟩]

/-- A device logs the client in twice with the same token, and the client gives a command in each
login. -/
def sameTokenRun : List Moment :=
  [⟨quietHost, .begin .sesame5⟩, ⟨quietHost, .setKeys none (Octets.zero 16)⟩] ++
    loginMoments ++ [⟨quietHost, .lock ""⟩, ⟨quietHost, .disconnect⟩] ++
    loginMoments ++ [⟨quietHost, .unlock ""⟩]

/-- The run keeps to its secret. -/
theorem keeps_sameTokenRun : ∀ m ∈ sameTokenRun, m.request.keeps (Octets.zero 16) = true := by
  decide +kernel

/-- The commands are the first ones in two logins with the same token. -/
theorem encryptions_sameTokenRun :
    ∃ x y, (Client.new (RandomSource.ofSeed 3)).encryptions sameTokenRun = [x, y] ∧
      x.epoch = ⟨1, Octets.ofBytes 4 [1, 2, 3, 4], 0⟩ ∧
      y.epoch = ⟨2, Octets.ofBytes 4 [1, 2, 3, 4], 0⟩ := by
  have hepochs : ((Client.new (RandomSource.ofSeed 3)).encryptions sameTokenRun).map
      Encryption.epoch =
        [⟨1, Octets.ofBytes 4 [1, 2, 3, 4], 0⟩, ⟨2, Octets.ofBytes 4 [1, 2, 3, 4], 0⟩] := by
    decide +kernel
  obtain ⟨x, rest, hlog, hx, hrest⟩ := List.map_eq_cons_iff.mp hepochs
  obtain ⟨y, last, rfl, hy, hlast⟩ := List.map_eq_cons_iff.mp hrest
  obtain rfl := List.map_eq_nil_iff.mp hlast
  exact ⟨x, y, hlog, hx, hy⟩

/-- They are encrypted under the same key and the same nonce. -/
theorem key_nonce_eq_sameTokenRun :
    (∀ m ∈ sameTokenRun, m.request.keeps (Octets.zero 16) = true) ∧
      ∃ x y, (Client.new (RandomSource.ofSeed 3)).encryptions sameTokenRun = [x, y] ∧
        x.key = y.key ∧ x.nonce = y.nonce := by
  obtain ⟨x, y, hlog, hx, hy⟩ := encryptions_sameTokenRun
  obtain ⟨-, -, -, -, hiff, -⟩ := key_nonce_eq_iff_run (RandomSource.ofSeed 3) keeps_sameTokenRun
  refine ⟨keeps_sameTokenRun, x, y, hlog, (hiff x (by simp [hlog]) y (by simp [hlog])).mpr ?_⟩
  simp [hx, hy]

/-- Not in every run is no key used twice with the same nonce: a token that comes again brings both
back. -/
theorem not_forall_encryptions_nodup :
    ¬ ∀ (random : RandomSource) (secret : Key) (ms : List Moment),
      (∀ m ∈ ms, m.request.keeps secret = true) →
      (((Client.new random).encryptions ms).map fun x => (x.key, x.nonce)).Nodup := by
  intro h
  have hnodup := h (RandomSource.ofSeed 3) (Octets.zero 16) sameTokenRun keeps_sameTokenRun
  obtain ⟨x, y, hlog, hx, hy⟩ := encryptions_sameTokenRun
  have hall := forall_mem_encryptionsFrom (c := Client.new (RandomSource.ofSeed 3)) (e := {})
    (fun _ hs => by cases hs) keeps_sameTokenRun
  rw [← encryptions, hlog] at hall
  obtain ⟨hxkey, hxnonce⟩ := hall x (by simp)
  obtain ⟨hykey, hynonce⟩ := hall y (by simp)
  rw [hlog] at hnodup
  simp [hxkey, hxnonce, hykey, hynonce, hx, hy] at hnodup

end SmartLock.Client
