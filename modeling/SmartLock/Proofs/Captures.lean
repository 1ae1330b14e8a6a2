/-
# Captures of traffic in both directions

A capture mixes the fragments that were sent to either party, and the part that is taken may change
in the middle of a message.  Each part has its own channel, so what is reported about the fragments
of one part is what is reported when they are all that is given (`Capture.ofPart_readAll`).

The fragments that one party puts on the air are those of its messages under one key, one after the
other, whatever the party receives meanwhile and whenever it has learnt the key
(`Exchange.Tracks`).  Hence a capture of a whole exchange shows every message that is short enough,
in either direction (`Command.decode_apart`).
-/
import SmartLock.Command.Run
import SmartLock.Proofs.Link.Stream
import SmartLock.Proofs.Text.Blank
import SmartLock.Proofs.Text.Hex

namespace SmartLock

/-! ## Lines of text -/

namespace CaptureLine

/-- How a part and a fragment are written: with a letter and with digits, in either case. -/
inductive Writes : List Char → CaptureLine → Prop
  | central {letter : Char} (h : letter = 'c' ∨ letter = 'C') : Writes [letter] (.take .central)
  | peripheral {letter : Char} (h : letter = 'p' ∨ letter = 'P') :
      Writes [letter] (.take .peripheral)
  | fragment {digits : List Char} {bytes : Bytes}
      (h : Hex.decode (String.ofList digits) = .ok bytes) : Writes digits (.fragment bytes)

/-- In a line that is written there is no white space. -/
theorem Writes.not_isBlank {text : List Char} {line : CaptureLine} (h : Writes text line) :
    ∀ c ∈ text, Text.isBlank c = false := by
  cases h with
  | central h => rcases h with rfl | rfl <;> exact List.forall_mem_singleton.mpr (by decide)
  | peripheral h => rcases h with rfl | rfl <;> exact List.forall_mem_singleton.mpr (by decide)
  | fragment h => exact Hex.not_isBlank_of_decode h

/-- A line is read, whatever white space is around it. -/
theorem Writes.ofText {text : List Char} {line : CaptureLine} (h : Writes text line)
    {before after : List Char} (hbefore : ∀ c ∈ before, Text.isBlank c = true)
    (hafter : ∀ c ∈ after, Text.isBlank c = true) :
    ofText (String.ofList (before ++ text ++ after)) = line := by
  rw [CaptureLine.ofText, String.toList_ofList,
    Text.trim_surrounded hbefore h.not_isBlank hafter]
  cases h with
  | central h => rcases h with rfl | rfl <;> rfl
  | peripheral h => rcases h with rfl | rfl <;> rfl
  | fragment h =>
      have hne (letter : Char) (hletter : Hex.decode (String.ofList [letter]) = .error .oddLength) :
          text ≠ [letter] := by
        rintro rfl
        rw [hletter] at h
        cases h
      rw [if_neg (by simp [hne 'c' rfl, hne 'C' rfl]), if_neg (by simp [hne 'p' rfl, hne 'P' rfl]),
        h]

end CaptureLine

/-- The digits of some bytes are read as a fragment. -/
theorem CaptureLine.ofText_encode (bytes : Bytes) :
    ofText (Hex.encode bytes) = .fragment bytes := by
  have hread := (Writes.fragment (Hex.decode_encode bytes)).ofText (List.forall_mem_nil _)
    (List.forall_mem_nil _)
  rwa [List.nil_append, List.append_nil] at hread

/-! ## The parts of a capture -/

/-- The items at the places of a part. -/
def ofPart {α : Type} (role : Role) (parts : List (Option Role)) (items : List α) : List α :=
  ((parts.zip items).filter (·.1 = some role)).map Prod.snd

section Parts

variable {α β : Type} {role : Role} {parts : List (Option Role)} {items : List α}

@[simp] theorem ofPart_cons_self (x : α) :
    ofPart role (some role :: parts) (x :: items) = x :: ofPart role parts items := by
  simp [ofPart]

/-- An item of no part, or of another one. -/
theorem ofPart_cons_of_ne {part : Option Role} (h : part ≠ some role) (x : α) :
    ofPart role (part :: parts) (x :: items) = ofPart role parts items := by
  simp [ofPart, h]

/-- What is made of each item stands at the same place. -/
theorem ofPart_map (f : α → β) :
    ofPart role parts (items.map f) = (ofPart role parts items).map f := by
  induction parts generalizing items with
  | nil => rfl
  | cons part parts ih =>
      cases items with
      | nil => rfl
      | cons x items =>
          by_cases h : part = some role
          · subst h
            simp [ih]
          · rw [List.map_cons, ofPart_cons_of_ne h, ofPart_cons_of_ne h, ih]

end Parts

namespace CaptureLine

/-- The part in which each line is decoded, given the part taken at the start.  Only fragments are
decoded. -/
def parts : Role → List CaptureLine → List (Option Role)
  | _, [] => []
  | _, .take role :: lines => none :: parts role lines
  | role, .fragment _ :: lines => some role :: parts role lines
  | role, .unreadable _ :: lines => none :: parts role lines

/-- The fragments among the lines. -/
def fragments (lines : List CaptureLine) : List Bytes :=
  lines.filterMap fun
    | .fragment bytes => some bytes
    | _ => none

/-- The fragments that are decoded in a part. -/
def fragmentsIn (role taken : Role) (lines : List CaptureLine) : List Bytes :=
  fragments (ofPart role (parts taken lines) lines)

/-- In a part there are only fragments. -/
theorem map_fragmentsIn (role taken : Role) (lines : List CaptureLine) :
    (fragmentsIn role taken lines).map fragment = ofPart role (parts taken lines) lines := by
  rw [fragmentsIn]
  induction lines generalizing taken with
  | nil => rfl
  | cons line lines ih =>
      cases line with
      | take other => simpa [parts, ofPart_cons_of_ne] using ih other
      | unreadable text => simpa [parts, ofPart_cons_of_ne] using ih taken
      | fragment bytes =>
          by_cases h : taken = role
          · subst h
            simpa [parts, fragments] using ih taken
          · simpa [parts, ofPart_cons_of_ne, h] using ih taken

@[simp] theorem fragmentsIn_nil (role taken : Role) : fragmentsIn role taken [] = [] := rfl

@[simp] theorem fragmentsIn_take (role taken other : Role) (lines : List CaptureLine) :
    fragmentsIn role taken (.take other :: lines) = fragmentsIn role other lines := by
  simp [fragmentsIn, parts, ofPart_cons_of_ne]

@[simp] theorem fragmentsIn_unreadable (role taken : Role) (text : String)
    (lines : List CaptureLine) :
    fragmentsIn role taken (.unreadable text :: lines) = fragmentsIn role taken lines := by
  simp [fragmentsIn, parts, ofPart_cons_of_ne]

/-- A fragment belongs to the part that is taken. -/
theorem fragmentsIn_fragment (role taken : Role) (bytes : Bytes) (lines : List CaptureLine) :
    fragmentsIn role taken (.fragment bytes :: lines) =
      if taken = role then bytes :: fragmentsIn role taken lines
      else fragmentsIn role taken lines := by
  by_cases h : taken = role
  · subst h
    simp [fragmentsIn, parts, fragments]
  · simp [fragmentsIn, parts, ofPart_cons_of_ne, h]

/-- So do several. -/
theorem fragmentsIn_append (role taken : Role) (bytes : List Bytes) (lines : List CaptureLine) :
    fragmentsIn role taken (bytes.map fragment ++ lines) =
      (if taken = role then bytes else []) ++ fragmentsIn role taken lines := by
  induction bytes with
  | nil => simp
  | cons first bytes ih =>
      rw [List.map_cons, List.cons_append, fragmentsIn_fragment, ih]
      split <;> rfl

end CaptureLine

/-! ## Reading one part -/

/-- What is told about a fragment, given what it led to. -/
def CaptureReport.of (fragment : Bytes) : Received → CaptureReport
  | .complete plain _ => .message plain
  | .requireMore => .requireMore fragment.length
  | .skipping _ | .dropped => .failed

/-- How a message is printed: its length, and its bytes in lower-case digits. -/
def CaptureReport.messageLine (message : Bytes) : String :=
  "decoded(" ++ toString message.length ++ ") " ++ Hex.encode message

/-- Whether a line about a fragment tells a message: it begins with this word. -/
def CaptureReport.tells (line : String) : Bool := "decoded(".toList.isPrefixOf line.toList

/-- The line that is printed about a complete message. -/
theorem CaptureReport.text_of_complete (fragment message : Bytes) (authenticated : Bool) :
    (of fragment (.complete message authenticated)).text = messageLine message := rfl

/-- The line of a message tells it. -/
theorem CaptureReport.tells_messageLine (message : Bytes) : tells (messageLine message) = true := by
  rw [tells, messageLine, String.toList_append, String.toList_append, String.toList_append,
    List.append_assoc, List.append_assoc]
  exact List.isPrefixOf_iff_prefix.mpr (List.prefix_append ..)

/-- No other line about a fragment does. -/
theorem CaptureReport.tells_of_incomplete (fragment : Bytes) {received : Received}
    (h : received.isComplete = false) : tells (of fragment received).text = false := by
  have hfailed : tells failed.text = false := by decide
  cases received with
  | complete message authenticated => cases h
  | requireMore =>
      change "decoded(".toList.isPrefixOf
        (">> (" ++ toString fragment.length ++ " bytes)").toList = false
      rw [String.toList_append, String.toList_append]
      rfl
  | skipping forged => exact hfailed
  | dropped => exact hfailed

/-- The reports about fragments that one channel receives. -/
def Channel.reports (c : Channel) (fragments : List Bytes) : List CaptureReport :=
  List.zipWith CaptureReport.of fragments (c.receiveAll fragments).2

/-- The messages that are printed are those that have come. -/
theorem Channel.filter_text_reports (c : Channel) (fragments : List Bytes) :
    ((c.reports fragments).map CaptureReport.text).filter CaptureReport.tells =
      ((c.receiveAll fragments).2.filter Received.isComplete).filterMap fun
        | .complete message _ => some (CaptureReport.messageLine message)
        | _ => none := by
  induction fragments generalizing c with
  | nil => rfl
  | cons fragment rest ih =>
      have hrest := ih (c.receive fragment).1
      have hother {received : Received} (h : received.isComplete = false) (lines : List String) :
          ((CaptureReport.of fragment received).text :: lines).filter CaptureReport.tells =
            lines.filter CaptureReport.tells :=
        List.filter_cons_of_neg (by simp [CaptureReport.tells_of_incomplete fragment h])
      simp only [reports, receiveAll, List.zipWith_cons_cons, List.map_cons] at hrest ⊢
      cases (c.receive fragment).2 with
      | complete message authenticated =>
          rw [CaptureReport.text_of_complete,
            List.filter_cons_of_pos (CaptureReport.tells_messageLine message), hrest]
          rfl
      | requireMore => exact (hother rfl _).trans hrest
      | skipping forged => exact (hother rfl _).trans hrest
      | dropped => exact (hother rfl _).trans hrest

namespace Capture

/-- The channel of a part, whether it is taken or not. -/
def channelOf (c : Capture) : Role → Channel
  | .central => c.central
  | .peripheral => c.peripheral

/-- Taking another part leaves all channels alone. -/
theorem channelOf_read_take (c : Capture) (role other : Role) :
    (c.read (.take other)).1.channelOf role = c.channelOf role := by
  cases role <;> rfl

/-- A fragment goes to the channel of the part that is taken. -/
theorem read_fragment (c : Capture) (bytes : Bytes) :
    (c.read (.fragment bytes)).1.role = c.role ∧
      (c.read (.fragment bytes)).1.channelOf c.role = ((c.channelOf c.role).receive bytes).1 ∧
      (∀ role, role ≠ c.role →
        (c.read (.fragment bytes)).1.channelOf role = c.channelOf role) ∧
      (c.read (.fragment bytes)).2 = .of bytes ((c.channelOf c.role).receive bytes).2 := by
  obtain ⟨central, peripheral, taken⟩ := c
  have hreport (received : Received) : (match received with
      | .complete plain _ => CaptureReport.message plain
      | .requireMore => .requireMore bytes.length
      | .skipping _ | .dropped => .failed) = .of bytes received := by
    cases received <;> rfl
  cases taken with
  | central =>
      refine ⟨rfl, rfl, ?_, hreport _⟩
      intro role hrole
      cases role <;> first | rfl | exact absurd rfl hrole
  | peripheral =>
      refine ⟨rfl, rfl, ?_, hreport _⟩
      intro role hrole
      cases role <;> first | rfl | exact absurd rfl hrole

/-- The reports of one part are those of its channel for its fragments, whatever stands between
them. -/
theorem ofPart_readAll (c : Capture) (role : Role) (lines : List CaptureLine) :
    ofPart role (CaptureLine.parts c.role lines) (c.readAll lines) =
      (c.channelOf role).reports (CaptureLine.fragmentsIn role c.role lines) := by
  induction lines generalizing c with
  | nil => rfl
  | cons line lines ih =>
      cases line with
      | take other =>
          have hlater := ih (c.read (.take other)).1
          rw [channelOf_read_take] at hlater
          simpa [CaptureLine.parts, readAll, read, ofPart_cons_of_ne,
            CaptureLine.fragmentsIn_take] using hlater
      | unreadable text =>
          simpa [CaptureLine.parts, readAll, read, ofPart_cons_of_ne] using ih c
      | fragment bytes =>
          have hlater := ih (c.read (.fragment bytes)).1
          obtain ⟨htaken, hself, hother, hreport⟩ := c.read_fragment bytes
          rw [htaken] at hlater
          rw [CaptureLine.parts, readAll]
          by_cases h : c.role = role
          · subst h
            rw [hself] at hlater
            rw [CaptureLine.fragmentsIn_fragment, if_pos rfl]
            simp only [ofPart_cons_self, hreport, hlater]
            rfl
          · rw [hother role (Ne.symm h)] at hlater
            have hne : some c.role ≠ some role := fun heq => h (Option.some.inj heq)
            rw [CaptureLine.fragmentsIn_fragment, if_neg h]
            simp only [ofPart_cons_of_ne hne, hlater]

/-- When only fragments are given, they are all in the part taken at the start. -/
theorem readAll_map_fragment (c : Capture) (fragments : List Bytes) :
    c.readAll (fragments.map .fragment) = (c.channelOf c.role).reports fragments := by
  induction fragments generalizing c with
  | nil => rfl
  | cons bytes rest ih =>
      obtain ⟨htaken, hself, -, hreport⟩ := c.read_fragment bytes
      have hlater := ih (c.read (.fragment bytes)).1
      rw [htaken, hself] at hlater
      rw [List.map_cons, readAll]
      simp only [hreport, hlater]
      rfl

end Capture

/-! ## Exchanges -/

/-- Two parties that talk to each other under a key that each of them may not know yet: what has
been put on the air for each party, and the messages that this was. -/
structure Exchange where
  channel : Role → Channel := Channel.new .os3
  air : Role → List Bytes := fun _ => []
  sent : Role → List Message := fun _ => []

namespace Exchange

/-- A party learns the key, sends a message through a writer, or receives a fragment, be it one
that was put on the air for it or not. -/
inductive Event where
  | install (role : Role)
  | send (sender : Role) (writer : Fragment.Writer) (message : Message)
  | receive (receiver : Role) (fragment : Bytes)

/-- The token of each party: the nonce of the session is the peripheral's. -/
def token (nonce : Token) : Role → Token
  | .central => Octets.zero 4
  | .peripheral => nonce

/-- The exchange after an event.  A message counts as sent only if sending it succeeds. -/
def step (key : Key) (nonce : Token) (x : Exchange) : Event → Exchange
  | .install role =>
      let keyed := (x.channel role).withKey key (token nonce role) (token nonce role.peer)
      { x with channel := Function.update x.channel role keyed }
  | .send sender writer message =>
      let sent := (x.channel sender).send writer message.body message.encrypted
      let messages := if sent.result.isOk then [message] else []
      { channel := Function.update x.channel sender sent.channel
        air := Function.update x.air sender.peer (x.air sender.peer ++ sent.offer.taken)
        sent := Function.update x.sent sender.peer (x.sent sender.peer ++ messages) }
  | .receive receiver fragment =>
      let after := ((x.channel receiver).receive fragment).1
      { x with channel := Function.update x.channel receiver after }

/-- A party learns the key once, the writers take every fragment, and messages can be sent. -/
def Admits (x : Exchange) : Event → Prop
  | .install role => (x.channel role).cipher.key = none
  | .send _ writer message => Fragment.TakesAll writer ∧ message.Sendable
  | .receive .. => True

/-- What two parties without a key come to. -/
inductive Reachable (key : Key) (nonce : Token) : Exchange → Prop
  | start : Reachable key nonce {}
  | step {x : Exchange} (event : Event) (hx : Reachable key nonce x) (hevent : x.Admits event) :
      Reachable key nonce (x.step key nonce event)

/-- The channels of a capture are those of two parties that have just learnt the key. -/
theorem channelOf_start (key : Key) (nonce : Token) (taken role : Role) :
    (Capture.start key nonce taken).channelOf role =
      (Duplex.keyed (Channel.new .os3) key (token nonce)).channel role := by
  cases role <;> rfl

/-! ### One direction of the two -/

/-- The end of a party right after it has learnt the key. -/
def keyed (key : Key) (nonce : Token) (role : Role) : Cipher :=
  ((Duplex.keyed (Channel.new .os3) key (token nonce)).channel role).cipher

/-- How an exchange stands in the direction towards one party.  The fragments on the air are those
of the messages under the key, also of the messages in plain from before.  Until the sender has
learnt the key, its nonce has not moved. -/
structure Tracks (key : Key) (nonce : Token) (x : Exchange) (receiver : Role) : Prop where
  role : (x.channel receiver.peer).cipher.role = receiver.peer
  rule : (x.channel receiver.peer).cipher.rule = .os3
  sendable : ∀ m ∈ x.sent receiver, m.Sendable
  queue : (keyed key nonce receiver.peer).fragments (x.sent receiver) = x.air receiver
  sending : (x.channel receiver.peer).cipher.key = none ∧
        (keyed key nonce receiver.peer).afterAll (x.sent receiver) = keyed key nonce receiver.peer ∨
      (x.channel receiver.peer).cipher.key = some key ∧
        ((keyed key nonce receiver.peer).afterAll (x.sent receiver)).AgreesOn receiver.inward
          (x.channel receiver.peer).cipher

section Steps

variable {key : Key} {nonce : Token} {x : Exchange} {receiver : Role}

/-- Before anything happens nothing is on the air. -/
theorem tracks_start (receiver : Role) : Tracks key nonce {} receiver where
  role := rfl
  rule := rfl
  sendable := fun _ hm => absurd hm List.not_mem_nil
  queue := rfl
  sending := .inl ⟨rfl, rfl⟩

/-- What leaves the sender, the air and the messages alone does not concern the direction. -/
theorem Tracks.congr (h : Tracks key nonce x receiver) {y : Exchange}
    (hchannel : y.channel receiver.peer = x.channel receiver.peer)
    (hair : y.air receiver = x.air receiver) (hsent : y.sent receiver = x.sent receiver) :
    Tracks key nonce y receiver := by
  constructor
  · rw [hchannel, h.role]
  · rw [hchannel, h.rule]
  · rw [hsent]
    exact h.sendable
  · rw [hsent, hair, h.queue]
  · rw [hsent, hchannel]
    exact h.sending

/-- The sender learns the key. -/
theorem Tracks.install (h : Tracks key nonce x receiver)
    (hkey : (x.channel receiver.peer).cipher.key = none) :
    Tracks key nonce (x.step key nonce (.install receiver.peer)) receiver := by
  have hstart : (keyed key nonce receiver.peer).afterAll (x.sent receiver) =
      keyed key nonce receiver.peer := by
    rcases h.sending with ⟨-, hstart⟩ | ⟨hsome, -⟩
    · exact hstart
    · rw [hkey] at hsome
      cases hsome
  have hcipher : ((x.channel receiver.peer).withKey key (token nonce receiver.peer)
      (token nonce receiver.peer.peer)).cipher.AgreesOn receiver.inward
        (keyed key nonce receiver.peer) := by
    refine ⟨rfl, h.rule, ?_⟩
    simp only [Channel.withKey, Cipher.withKey, h.role, h.rule]
    rfl
  constructor
  · simp only [step, Function.update_self]
    exact h.role
  · simp only [step, Function.update_self]
    exact h.rule
  · exact h.sendable
  · exact h.queue
  · simp only [step, Function.update_self]
    exact .inr ⟨rfl, by rw [hstart]; exact hcipher.symm⟩

/-- The sender receives something. -/
theorem Tracks.receive (h : Tracks key nonce x receiver) (fragment : Bytes) :
    Tracks key nonce (x.step key nonce (.receive receiver.peer fragment)) receiver := by
  have hreceive := Channel.agreesOn_receive (x.channel receiver.peer) fragment
  rw [h.role, Role.outward_peer] at hreceive
  constructor
  · simp only [step, Function.update_self, Channel.role_receive, h.role]
  · simp only [step, Function.update_self]
    rw [← hreceive.2.1, h.rule]
  · exact h.sendable
  · exact h.queue
  · simp only [step, Function.update_self, Channel.key_receive]
    rcases h.sending with hnone | ⟨hsome, hagrees⟩
    · exact .inl hnone
    · exact .inr ⟨hsome, hagrees.trans hreceive⟩

/-- A message goes out in the fragments that it has under the key. -/
theorem Tracks.send_of_ok (h : Tracks key nonce x receiver) {writer : Fragment.Writer}
    {m : Message} (hm : m.Sendable) {after : Channel}
    (hsend : (x.channel receiver.peer).send writer m.body m.encrypted =
      { channel := after
        offer := ⟨Fragment.split m.encrypted (((keyed key nonce receiver.peer).afterAll
          (x.sent receiver)).pack m).2, none⟩
        result := .ok () })
    (hrole : after.cipher.role = receiver.peer) (hrule : after.cipher.rule = .os3)
    (hsending : after.cipher.key = none ∧
          (((keyed key nonce receiver.peer).afterAll (x.sent receiver)).pack m).1 =
            keyed key nonce receiver.peer ∨
        after.cipher.key = some key ∧
          (((keyed key nonce receiver.peer).afterAll (x.sent receiver)).pack m).1.AgreesOn
            receiver.inward after.cipher) :
    Tracks key nonce (x.step key nonce (.send receiver.peer writer m)) receiver := by
  constructor
  · simp only [step, hsend, Function.update_self, hrole]
  · simp only [step, hsend, Function.update_self, hrule]
  · simp only [step, hsend, Role.peer_peer, Function.update_self]
    intro other hother
    rcases List.mem_append.mp hother with hbefore | hlast
    · exact h.sendable other hbefore
    · obtain rfl : other = m := by simpa [Except.isOk, Except.toBool] using hlast
      exact hm
  · simp only [step, hsend, Role.peer_peer, Function.update_self]
    exact (Cipher.fragments_concat _ _ _).trans (by rw [h.queue])
  · simp only [step, hsend, Role.peer_peer, Function.update_self]
    have hafter := Cipher.afterAll_concat (keyed key nonce receiver.peer) (x.sent receiver) m
    exact hafter.symm ▸ hsending

/-- The sender sends something. -/
theorem Tracks.send (h : Tracks key nonce x receiver) {writer : Fragment.Writer} {m : Message}
    (hwriter : Fragment.TakesAll writer) (hm : m.Sendable) :
    Tracks key nonce (x.step key nonce (.send receiver.peer writer m)) receiver := by
  rcases h.sending with ⟨hnone, hstart⟩ | ⟨hsome, hagrees⟩
  · obtain ⟨body, encrypted⟩ := m
    cases encrypted with
    | false =>
        exact h.send_of_ok hm ((x.channel receiver.peer).send_plain_of_takesAll body hwriter)
          h.role h.rule (.inl ⟨hnone, hstart⟩)
    | true =>
        have hfails : (x.channel receiver.peer).send writer body true =
            { channel := x.channel receiver.peer, result := .error (.crypto .keyNotPrepared) } := by
          simp [Channel.send, Cipher.encrypt, hnone]
        apply h.congr
        · simp only [step, hfails, Function.update_self]
        · simp only [step, hfails, Role.peer_peer, Function.update_self, List.append_nil]
        · simp only [step, hfails, Role.peer_peer, Function.update_self]
          exact List.append_nil _
  · have hout : ((keyed key nonce receiver.peer).afterAll (x.sent receiver)).role.outward =
        receiver.inward := by
      rw [Cipher.role_afterAll]
      exact Role.outward_peer receiver
    obtain ⟨hpacket, hafter⟩ := Cipher.AgreesOn.pack (m := m) (hout.symm ▸ hagrees)
      (by rw [Cipher.role_afterAll, h.role]; rfl)
    rw [hout] at hafter
    have hsend := Channel.send_of_takesAll hsome hm hwriter
    rw [← hpacket] at hsend
    refine h.send_of_ok hm hsend ?_ ?_ (.inr ⟨?_, hafter⟩)
    · exact (Cipher.role_pack _ m).trans h.role
    · exact (Cipher.agreesOn_pack _ m).2.1.symm.trans h.rule
    · exact (Cipher.key_pack _ m).trans hsome

/-- Every event keeps the direction in order. -/
theorem Tracks.step (h : Tracks key nonce x receiver) {event : Event} (hevent : x.Admits event) :
    Tracks key nonce (x.step key nonce event) receiver := by
  cases event with
  | install role =>
      by_cases hrole : role = receiver
      · subst hrole
        exact h.congr (Function.update_of_ne role.peer_ne _ _) rfl rfl
      · obtain rfl := Role.eq_peer_of_ne hrole
        exact h.install hevent
  | send sender writer message =>
      by_cases hsender : sender = receiver
      · subst hsender
        exact h.congr (Function.update_of_ne sender.peer_ne _ _)
          (Function.update_of_ne sender.peer_ne.symm _ _)
          (Function.update_of_ne sender.peer_ne.symm _ _)
      · obtain rfl := Role.eq_peer_of_ne hsender
        exact h.send hevent.1 hevent.2
  | receive other fragment =>
      by_cases hother : other = receiver
      · subst hother
        exact h.congr (Function.update_of_ne other.peer_ne _ _) rfl rfl
      · obtain rfl := Role.eq_peer_of_ne hother
        exact h.receive fragment

/-- Every exchange keeps both directions in order. -/
theorem Reachable.tracks (h : Reachable key nonce x) (receiver : Role) :
    Tracks key nonce x receiver := by
  induction h with
  | start => exact tracks_start receiver
  | step event hx hevent ih => exact ih.step hevent

/-- What is printed about all that is on the air for a party tells the messages that are short
enough. -/
theorem Reachable.filter_text_reports (h : Reachable key nonce x) (taken receiver : Role) :
    ((((Capture.start key nonce taken).channelOf receiver).reports (x.air receiver)).map
        CaptureReport.text).filter CaptureReport.tells =
      ((x.sent receiver).filter (·.Fits)).map fun m => CaptureReport.messageLine m.body := by
  have htracks := h.tracks receiver
  have hnew : ∀ role, (Channel.new .os3 role).cipher.role = role ∧
      (Channel.new .os3 role).cipher.rule = .os3 := fun _ => ⟨rfl, rfl⟩
  have hkeyed := Duplex.key_keyed (Channel.new .os3) key (token nonce)
  have hqueue : (keyed key nonce receiver.peer).fragments (x.sent receiver) =
      x.air receiver ++ [] := by
    rw [htracks.queue, List.append_nil]
  have hfollows := Channel.follows_of_fragments (hkeyed receiver) rfl
    (Duplex.agreesOn_keyed key (token nonce) hnew _ receiver) htracks.sendable hqueue
  have hcount : (x.air receiver).countP Fragment.isLast = (x.sent receiver).length := by
    rw [← htracks.queue]
    exact Cipher.countP_isLast_fragments (hkeyed receiver.peer) htracks.sendable
  have hcomplete := hfollows.complete
  rw [hcount, List.take_length] at hcomplete
  rw [channelOf_start, Channel.filter_text_reports, hcomplete, List.filterMap_map]
  exact congrFun List.filterMap_eq_map' _

/-- A message is sent if it is in plain or the sender has learnt the key. -/
theorem sent_step_send {sender : Role} {writer : Fragment.Writer} {m : Message}
    (hwriter : Fragment.TakesAll writer) (hm : m.Sendable)
    (hkey : m.encrypted = false ∨ (x.channel sender).cipher.key = some key) :
    (x.step key nonce (.send sender writer m)).sent =
      Function.update x.sent sender.peer (x.sent sender.peer ++ [m]) := by
  have hok : ((x.channel sender).send writer m.body m.encrypted).result = .ok () := by
    rcases hkey with hplain | hkey
    · rw [hplain, Channel.send_plain_of_takesAll _ _ hwriter]
    · rw [Channel.send_of_takesAll hkey hm hwriter]
  simp only [step, hok]
  rfl

end Steps

end Exchange

/-! ## The command -/

namespace Command

/-- **The two directions of a capture.**  Let the lines of a capture be given with the secret and
the nonce of a session.  What is told about the fragments of a part, however often and wherever the
part taken changes, is what is told when these fragments alone are given in this part.  If they are
what two parties that learn the key of the session have put on the air for the party in this part,
the lines printed about them that tell a message are one for each message that was sent to it, in
their order, but for those that are too long: with its length and with its bytes in lower-case
digits. -/
theorem decode_apart {secretText nonceText : String} {secret : Key} {nonce : Token}
    (hsecret : Hex.decodeExact 16 secretText = .ok secret)
    (hnonce : Hex.decodeExact 4 nonceText = .ok nonce) (taken : Role) (texts : List String) :
    let key := cmac secret nonce.toBytes
    let first := "session key=" ++ Hex.encode key.toBytes
    let lines := texts.map CaptureLine.ofText
    let parts := CaptureLine.parts taken lines
    let printed := ((Capture.start key nonce taken).readAll lines).map CaptureReport.text
    runDecode secretText nonceText (taken = .peripheral) texts = .print (first :: printed) ∧
      ∀ role : Role,
        runDecode secretText nonceText (role = .peripheral) (ofPart role parts texts) =
            .print (first :: ofPart role parts printed) ∧
          ∀ x : Exchange, x.Reachable key nonce →
            CaptureLine.fragmentsIn role taken lines = x.air role →
            (ofPart role parts printed).filter CaptureReport.tells =
              ((x.sent role).filter (·.Fits)).map fun m =>
                "decoded(" ++ toString m.body.length ++ ") " ++ Hex.encode m.body := by
  intro key first lines parts printed
  have hrun (role : Role) (texts : List String) :
      runDecode secretText nonceText (role = .peripheral) texts =
        .print (first :: ((Capture.start key nonce role).readAll
          (texts.map CaptureLine.ofText)).map CaptureReport.text) := by
    rw [runDecode, hsecret]
    dsimp only
    rw [hnonce]
    cases role <;> rfl
  refine ⟨hrun taken texts, fun role => ?_⟩
  have hpart : ofPart role parts printed =
      (((Capture.start key nonce taken).channelOf role).reports
        (CaptureLine.fragmentsIn role taken lines)).map CaptureReport.text := by
    rw [ofPart_map]
    exact congrArg _ ((Capture.start key nonce taken).ofPart_readAll role lines)
  constructor
  · have hchannel : (Capture.start key nonce role).channelOf role =
        (Capture.start key nonce taken).channelOf role := by
      rw [Exchange.channelOf_start, Exchange.channelOf_start]
    have halone := (Capture.start key nonce role).readAll_map_fragment
      (CaptureLine.fragmentsIn role taken lines)
    rw [CaptureLine.map_fragmentsIn] at halone
    have hlines : (ofPart role parts texts).map CaptureLine.ofText = ofPart role parts lines :=
      (ofPart_map CaptureLine.ofText).symm
    rw [hrun, hlines, halone, hpart, ← hchannel]
    rfl
  · intro x hx hair
    rw [hpart, hair]
    exact hx.filter_text_reports taken role

end Command

/-- An exchange in which a greeting in plain comes before the key, an answer in plain after it, and
two encrypted messages cross, one of them in three fragments. -/
def Exchange.crossing (key : Key) (nonce : Token) : Exchange :=
  let writer : Fragment.Writer := fun _ _ => true
  let greeted := step key nonce {} (.send .peripheral writer ⟨[8, 14], false⟩)
  let answered := step key nonce (step key nonce greeted (.install .central))
    (.send .central writer ⟨[2, 9, 9, 9, 9], false⟩)
  let asked := step key nonce (step key nonce answered (.install .peripheral))
    (.send .central writer ⟨List.replicate 40 7, true⟩)
  step key nonce asked (.send .peripheral writer ⟨[7, 2, 0], true⟩)

/-- Such an exchange is one. -/
theorem Exchange.reachable_crossing (key : Key) (nonce : Token) :
    (crossing key nonce).Reachable key nonce := by
  unfold crossing
  extract_lets writer greeted answered asked
  have htakes : Fragment.TakesAll writer := fun _ _ => rfl
  have hgreeted : Reachable key nonce greeted := .step _ .start ⟨htakes, by decide⟩
  have hanswered : Reachable key nonce answered :=
    .step _ (.step _ hgreeted rfl) ⟨htakes, by decide⟩
  have hasked : Reachable key nonce asked := .step _ (.step _ hanswered rfl) ⟨htakes, by decide⟩
  exact .step _ hasked ⟨htakes, by decide⟩

/-- All of its messages are sent. -/
theorem Exchange.sent_crossing (key : Key) (nonce : Token) :
    (crossing key nonce).sent .central = [⟨[8, 14], false⟩, ⟨[7, 2, 0], true⟩] ∧
      (crossing key nonce).sent .peripheral =
        [⟨[2, 9, 9, 9, 9], false⟩, ⟨List.replicate 40 7, true⟩] := by
  unfold crossing
  extract_lets writer greeted answered asked
  have htakes : Fragment.TakesAll writer := fun _ _ => rfl
  have hgreeted : greeted.sent = _ := sent_step_send htakes (by decide) (.inl rfl)
  have hanswered : answered.sent = _ := sent_step_send htakes (by decide) (.inl rfl)
  have hasked : asked.sent = _ := sent_step_send htakes (by decide) (.inr rfl)
  have hlast : (step key nonce asked (.send .peripheral writer ⟨[7, 2, 0], true⟩)).sent = _ :=
    sent_step_send htakes (by decide) (.inr rfl)
  rw [hlast, hasked]
  simp only [step, hanswered, hgreeted]
  exact ⟨rfl, rfl⟩

/-- A capture of it that changes the part in the middle of a message. -/
def Exchange.crossingCapture (key : Key) (nonce : Token) : List String :=
  let toCentral := (crossing key nonce).air .central
  let toPeripheral := (crossing key nonce).air .peripheral
  (toCentral.take 1).map Hex.encode ++ "P" :: (toPeripheral.take 2).map Hex.encode ++
    " c\n" :: (toCentral.drop 1).map Hex.encode ++
    "p" :: "C" :: "no digits" :: "\tp " :: (toPeripheral.drop 2).map Hex.encode ++ ["c"]

/-- Each party's fragments are in its part. -/
theorem Exchange.fragmentsIn_crossingCapture (key : Key) (nonce : Token) (role : Role) :
    CaptureLine.fragmentsIn role .central
        ((crossingCapture key nonce).map CaptureLine.ofText) =
      (crossing key nonce).air role := by
  have hencode (fragments : List Bytes) :
      (fragments.map Hex.encode).map CaptureLine.ofText = fragments.map .fragment := by
    rw [List.map_map]
    exact List.map_congr_left fun bytes _ => CaptureLine.ofText_encode bytes
  have hmarks : CaptureLine.ofText "P" = .take .peripheral ∧
      CaptureLine.ofText " c\n" = .take .central ∧ CaptureLine.ofText "p" = .take .peripheral ∧
      CaptureLine.ofText "C" = .take .central ∧
      CaptureLine.ofText "no digits" = .unreadable "no digits" ∧
      CaptureLine.ofText "\tp " = .take .peripheral ∧
      CaptureLine.ofText "c" = .take .central := by
    decide +kernel
  obtain ⟨hP, hc, hp, hC, hdigits, htab, hlast⟩ := hmarks
  simp only [crossingCapture, List.map_append, List.map_cons, List.map_nil, hencode, hP, hc, hp,
    hC, hdigits, htab, hlast, List.append_assoc, List.cons_append, CaptureLine.fragmentsIn_append,
    CaptureLine.fragmentsIn_take, CaptureLine.fragmentsIn_unreadable, CaptureLine.fragmentsIn_nil]
  cases role with
  | central => simpa using List.take_append_drop 1 ((crossing key nonce).air .central)
  | peripheral => simp

/-- All of its messages are printed. -/
theorem Command.decode_apart_crossing :
    let key := cmac (Octets.zero 16) (Octets.zero 4).toBytes
    let x := Exchange.crossing key (Octets.zero 4)
    let lines := (Exchange.crossingCapture key (Octets.zero 4)).map CaptureLine.ofText
    let parts := CaptureLine.parts .central lines
    let printed := ((Capture.start key (Octets.zero 4) .central).readAll lines).map
      CaptureReport.text
    Hex.decodeExact 16 "00000000000000000000000000000000" = .ok (Octets.zero 16) ∧
      Hex.decodeExact 4 " 00000000" = .ok (Octets.zero 4) ∧ x.Reachable key (Octets.zero 4) ∧
      (∀ role, CaptureLine.fragmentsIn role .central lines = x.air role) ∧
      (ofPart .central parts printed).filter CaptureReport.tells =
        ["decoded(2) 080e", "decoded(3) 070200"] ∧
      (ofPart .peripheral parts printed).filter CaptureReport.tells =
        ["decoded(5) 0209090909", "decoded(40) " ++ String.join (List.replicate 40 "07")] := by
  have hsecret : Hex.decodeExact 16 "00000000000000000000000000000000" = .ok (Octets.zero 16) := by
    decide +kernel
  have hnonce : Hex.decodeExact 4 " 00000000" = .ok (Octets.zero 4) := by decide +kernel
  intro key x lines parts printed
  have hx : x.Reachable key (Octets.zero 4) := Exchange.reachable_crossing key _
  have hair (role : Role) : CaptureLine.fragmentsIn role .central lines = x.air role :=
    Exchange.fragmentsIn_crossingCapture key _ role
  obtain ⟨hcentral, hperipheral⟩ := Exchange.sent_crossing key (Octets.zero 4)
  obtain ⟨-, happart⟩ := decode_apart hsecret hnonce .central
    (Exchange.crossingCapture key (Octets.zero 4))
  refine ⟨hsecret, hnonce, hx, hair, ?_, ?_⟩
  · refine ((happart .central).2 x hx (hair .central)).trans ?_
    rw [hcentral]
    decide
  · refine ((happart .peripheral).2 x hx (hair .peripheral)).trans ?_
    rw [hperipheral]
    decide

end SmartLock
