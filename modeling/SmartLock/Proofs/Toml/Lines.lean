/-
# Lines that are read back

What a line of a document is read as, when nothing in it needs quotes but its texts: numbers
(`Token.read?_toDigits`), values (`readValue_write`, `readValue_toDigits`, `readValue_empty`),
assignments and headers.  A block of text reads as some lines (`Reads`) if it does so before
anything else that can be read, and blocks are put together one after the other.
-/
import Mathlib.Data.List.TakeDrop
import Mathlib.Data.List.TakeWhile
import Mathlib.Tactic.Common
import SmartLock.Proofs.Toml.Quoted
import SmartLock.Toml.Document

namespace SmartLock.Toml

/-- A key of one name. -/
def Key.plain (name : String) : Key := ⟨[], name⟩

/-! ## Numbers -/

namespace Token

/-- A run of characters of a kind ends before the first of another kind. -/
theorem span_append_cons {p : Char → Bool} {token : List Char} (htoken : ∀ c ∈ token, p c = true)
    {c : Char} (hc : p c = false) (rest : List Char) :
    (token ++ c :: rest).span p = (token, c :: rest) := by
  rw [List.span_eq_takeWhile_dropWhile, List.takeWhile_append_of_pos htoken,
    List.dropWhile_append_of_pos htoken, List.takeWhile_cons_of_neg (by simp [hc]),
    List.dropWhile_cons_of_neg (by simp [hc]), List.append_nil]

/-- A decimal digit is read as its number. -/
theorem digit?_of_isDigit {c : Char} (hc : c.isDigit = true) :
    digit? 10 c = some (c.toNat - 48) := by
  have hbound : c.toNat ≤ 57 := by
    have hle : c ≤ '9' := by
      simp only [Char.isDigit, Bool.and_eq_true, decide_eq_true_eq] at hc
      exact hc.2
    exact hle
  rw [digit?, Quoted.hexValue?, if_pos hc, Option.filter_some, if_pos]
  rw [decide_eq_true_eq]
  omega

/-- Decimal digits after others are read as the number that they write together. -/
theorem digitsAfter?_of_isDigit {cs : List Char} (hcs : ∀ c ∈ cs, c.isDigit = true) (n : Nat) :
    digitsAfter? 10 n cs = some (Nat.ofDigitChars 10 cs n) := by
  induction cs generalizing n with
  | nil => rfl
  | cons c cs ih =>
      have hc := hcs c List.mem_cons_self
      have hunderscore : c ≠ '_' := by
        rintro rfl
        exact absurd hc (by decide)
      have hnext : Nat.ofDigitChars 10 (c :: cs) n =
          Nat.ofDigitChars 10 cs (n * 10 + (c.toNat - 48)) := by
        rw [Nat.mul_comm n 10]
        rfl
      rw [digitsAfter?, digit?_of_isDigit hc, Option.bind_some, hnext]
      · exact ih (fun d hd => hcs d (List.mem_cons_of_mem _ hd)) _
      · exact fun _ _ h => absurd h hunderscore

/-- A number is written with decimal digits. -/
theorem isDigit_of_mem {n : Nat} {c : Char} (hc : c ∈ Nat.toDigits 10 n) : c.isDigit = true :=
  Nat.isDigit_of_mem_toDigits (by decide) (by decide) hc

/-- No positive number is written with a zero in front. -/
theorem head?_toDigits {n : Nat} (hn : 0 < n) : (Nat.toDigits 10 n).head? ≠ some '0' := by
  induction n using Nat.strong_induction_on with
  | h n ih =>
      rw [Nat.toDigits_eq_if (by decide)]
      split
      · rename_i hlt
        have hall : ∀ n : Fin 10, 0 < n.val → [n.val.digitChar].head? ≠ some '0' := by decide
        exact hall ⟨n, hlt⟩ hn
      · rw [List.head?_append, Option.or_of_isSome (by simp [Nat.toDigits_ne_nil])]
        exact ih (n / 10) (by omega) (by omega)

/-- A zero in front of other digits is not written. -/
theorem toDigits_ne_zero_cons (n : Nat) (c : Char) (cs : List Char) :
    Nat.toDigits 10 n ≠ '0' :: c :: cs := by
  intro h
  by_cases hn : n = 0
  · subst hn
    exact absurd h (by simp)
  · exact head?_toDigits (Nat.pos_of_ne_zero hn) (by rw [h]; rfl)

/-- The digits of a number are read as the number. -/
theorem decimal?_toDigits (n : Nat) : decimal? (Nat.toDigits 10 n) = some n := by
  have hdigits : digits? 10 (Nat.toDigits 10 n) = some n := by
    have hvalue : Nat.ofDigitChars 10 (Nat.toDigits 10 n) 0 = n :=
      Nat.ofDigitChars_toDigits (by decide) (by decide)
    cases hcs : Nat.toDigits 10 n with
    | nil => exact absurd hcs Nat.toDigits_ne_nil
    | cons c cs =>
        have hall : ∀ d ∈ c :: cs, d.isDigit = true := fun d hd => isDigit_of_mem (hcs ▸ hd)
        rw [hcs] at hvalue
        rw [digits?, digit?_of_isDigit (hall c List.mem_cons_self), Option.bind_some,
          digitsAfter?_of_isDigit fun d hd => hall d (List.mem_cons_of_mem _ hd)]
        exact congrArg some (Eq.trans (by simp [Nat.ofDigitChars]) hvalue)
  unfold decimal?
  split
  · exact absurd ‹_› (toDigits_ne_zero_cons n _ _)
  · exact hdigits

/-- The digits of a number that fits are a token for it. -/
theorem integer?_toDigits {n : Nat} (hn : n < 0x8000000000000000) :
    integer? (Nat.toDigits 10 n) = some (Int.ofNat n) := by
  have hfits : word64? (Int.ofNat n) = some (Int.ofNat n) := by
    rw [word64?, if_pos]
    simp only [Int.ofNat_eq_natCast]
    omega
  unfold integer?
  split
  · have := isDigit_of_mem (n := n) (c := '+') (by simp [*])
    exact absurd this (by decide)
  · have := isDigit_of_mem (n := n) (c := '-') (by simp [*])
    exact absurd this (by decide)
  · exact absurd ‹_› (toDigits_ne_zero_cons n _ _)
  · exact absurd ‹_› (toDigits_ne_zero_cons n _ _)
  · exact absurd ‹_› (toDigits_ne_zero_cons n _ _)
  · rw [decimal?_toDigits, Option.map_some, Option.bind_some, hfits]

/-- A number at the end of a line is read back. -/
theorem read?_toDigits {n : Nat} (hn : n < 0x8000000000000000) (rest : List Char) :
    read? (Nat.toDigits 10 n ++ '\n' :: rest) = some (.integer n, '\n' :: rest) := by
  have hpart : ∀ c ∈ Nat.toDigits 10 n, isPart c = true := fun c hc => by
    simp [isPart, Char.isAlphanum, isDigit_of_mem hc]
  have hspan := span_append_cons hpart (show isPart '\n' = false by decide) rest
  rw [read?, hspan]
  dsimp only
  rw [if_neg (by simp [hasTime]), value?, integer?_toDigits hn]
  rfl

end Token

/-! ## Values -/

/-- A text that begins with a quote is read as a quoted one. -/
theorem readValue_of_read? {depth : Nat} {cs rest : List Char} {text : String}
    (h : Quoted.read? cs = some (text, rest)) :
    readValue depth cs = some (.string text, rest) := by
  have hbracket : ∀ more, cs ≠ '[' :: more := by rintro more rfl; cases h
  have hbrace : ∀ more, cs ≠ '\x7b' :: more := by rintro more rfl; cases h
  unfold readValue
  split
  · exact absurd rfl (hbracket _)
  · exact absurd rfl (hbrace _)
  · rw [h]

/-- A written text is read back at the end of a line. -/
theorem readValue_write (depth : Nat) (text : String) (rest : List Char) :
    readValue depth (Quoted.write text ++ '\n' :: rest) = some (.string text, '\n' :: rest) :=
  readValue_of_read? (Quoted.read?_write text (by simp) (by simp))

/-- A written number is read back at the end of a line. -/
theorem readValue_toDigits (depth : Nat) {n : Nat} (hn : n < 0x8000000000000000)
    (rest : List Char) :
    readValue depth (Nat.toDigits 10 n ++ '\n' :: rest) = some (.integer n, '\n' :: rest) := by
  obtain ⟨c, cs, hcs⟩ := List.exists_cons_of_ne_nil (Nat.toDigits_ne_nil (n := n) (b := 10))
  have hc : c.isDigit = true := Token.isDigit_of_mem (n := n) (by simp [hcs])
  have hread := Token.read?_toDigits hn rest
  rw [hcs, List.cons_append] at hread ⊢
  have hne {d : Char} (hd : d.isDigit = false) : c ≠ d := by
    rintro rfl
    exact absurd (hc.symm.trans hd) (by decide)
  have hquoted : Quoted.read? (c :: (cs ++ '\n' :: rest)) = none := by
    unfold Quoted.read?
    split
    · exact absurd (List.cons.inj ‹_›).1 (hne (by decide))
    · exact absurd (List.cons.inj ‹_›).1 (hne (by decide))
    · unfold Quoted.readLine?
      split
      · exact absurd (List.cons.inj ‹_›).1 (hne (by decide))
      · exact absurd (List.cons.inj ‹_›).1 (hne (by decide))
      · rfl
  unfold readValue
  split
  · exact absurd (List.cons.inj ‹_›).1 (hne (by decide))
  · exact absurd (List.cons.inj ‹_›).1 (hne (by decide))
  · rw [hquoted]
    exact hread

/-- An empty list is read back. -/
theorem readValue_empty (rest : List Char) :
    readValue maxDepth ('[' :: ']' :: rest) = some (.array [], rest) := by
  have hitems : readItems (readValue 78) ((']' :: rest).length + 1) (']' :: rest) =
      some ([], rest) := by
    rw [readItems, dropFiller, if_neg (by decide), if_neg (by decide)]
    · rfl
    · decide
    · decide
  rw [maxDepth, readValue, hitems, Option.map_some]

/-! ## Keys -/

/-- Whether a name is a key without quotes. -/
def isPlainName (name : String) : Bool := !name.toList.isEmpty && name.toList.all isNamePart

section Names

variable {name : String}

/-- Such a name has only letters, digits, hyphens and underscores. -/
theorem isNamePart_of_mem (hname : isPlainName name = true) :
    ∀ c ∈ name.toList, isNamePart c = true := by
  simp only [isPlainName, Bool.and_eq_true] at hname
  exact List.all_eq_true.mp hname.2

/-- Such a name begins with one of them. -/
theorem exists_cons_of_isPlainName (hname : isPlainName name = true) :
    ∃ c cs, name.toList = c :: cs ∧ isNamePart c = true := by
  have hne : name.toList ≠ [] := by
    simp only [isPlainName, Bool.and_eq_true, Bool.not_eq_true', List.isEmpty_eq_false_iff] at hname
    exact hname.1
  obtain ⟨c, cs, hcs⟩ := List.exists_cons_of_ne_nil hne
  exact ⟨c, cs, hcs, isNamePart_of_mem hname c (hcs ▸ List.mem_cons_self)⟩

/-- Such a name begins with no other character. -/
theorem append_ne_cons (hname : isPlainName name = true) {c : Char} (hc : isNamePart c = false)
    (rest more : List Char) : name.toList ++ rest ≠ c :: more := by
  obtain ⟨d, ds, hds, hd⟩ := exists_cons_of_isPlainName hname
  intro h
  rw [hds, List.cons_append] at h
  exact absurd ((List.cons.inj h).1 ▸ hd) (by simp [hc])

/-- A name without quotes is read up to the first character of another kind. -/
theorem readName_append (hname : isPlainName name = true) {c : Char} (hc : isNamePart c = false)
    (rest : List Char) : readName (name.toList ++ c :: rest) = some (name, c :: rest) := by
  have hquoted : Quoted.readLine? (name.toList ++ c :: rest) = none := by
    unfold Quoted.readLine?
    split
    · exact absurd ‹_› (append_ne_cons hname (by decide) _ _)
    · exact absurd ‹_› (append_ne_cons hname (by decide) _ _)
    · rfl
  rw [readName, hquoted]
  dsimp only
  rw [Token.span_append_cons (isNamePart_of_mem hname) hc rest]
  split
  · obtain ⟨d, ds, hds, -⟩ := exists_cons_of_isPlainName hname
    exact absurd (hds.symm.trans (congrArg Prod.fst ‹_›)) (List.cons_ne_nil d ds)
  · rename_i heq
    obtain ⟨rfl, rfl⟩ := Prod.mk.inj heq
    rw [String.ofList_toList]

/-- A key of one name is read up to what follows it, but for the spaces after it. -/
theorem readKey_append (hname : isPlainName name = true) {c : Char} (hc : isNamePart c = false)
    {rest after : List Char} (hafter : dropSpaces (c :: rest) = after)
    (hdot : ∀ more, after ≠ '.' :: more) :
    readKey (name.toList ++ c :: rest) = some (.plain name, after) := by
  have hspaces : dropSpaces (name.toList ++ c :: rest) = name.toList ++ c :: rest := by
    obtain ⟨d, ds, hds, hd⟩ := exists_cons_of_isPlainName hname
    rw [hds, List.cons_append, dropSpaces, List.dropWhile_cons_of_neg]
    intro hspace
    simp only [Quoted.isSpace, Bool.or_eq_true, decide_eq_true_eq] at hspace
    rcases hspace with rfl | rfl <;> exact absurd hd (by decide)
  have hnames : readNames maxDepth (name.toList ++ c :: rest) = some ([name], after) := by
    rw [maxDepth, readNames, hspaces, readName_append hname hc]
    simp only [Option.bind_eq_bind, Option.bind_some, hafter]
    rfl
  rw [readKey, hnames]
  rfl

end Names

/-! ## Lines -/

/-- Whether a text begins with something that a line can begin with: no blank, no comment and no
line end. -/
def beginsLine : List Char → Bool
  | [] => false
  | c :: _ => !Quoted.isSpace c && c ≠ '#' && c ≠ '\n' && c ≠ '\r'

/-- No spaces are dropped from the start of a line. -/
theorem dropSpaces_of_beginsLine {cs : List Char} (h : beginsLine cs = true) (rest : List Char) :
    dropSpaces (cs ++ rest) = cs ++ rest := by
  cases cs with
  | nil => exact absurd h (by decide)
  | cons c cs =>
      simp only [beginsLine, Bool.and_eq_true, Bool.not_eq_true'] at h
      exact List.dropWhile_cons_of_neg (by simp [h.1.1.1])

/-- A line that begins with something is not silent. -/
theorem isSilent_of_beginsLine {cs : List Char} (h : beginsLine cs = true) (rest : List Char) :
    isSilent (cs ++ rest) = false := by
  cases cs with
  | nil => exact absurd h (by decide)
  | cons c cs =>
      simp only [beginsLine, Bool.and_eq_true, decide_eq_true_eq] at h
      obtain ⟨⟨⟨-, hcomment⟩, hn⟩, hr⟩ := h
      unfold isSilent
      split
      · exact absurd (List.cons.inj ‹_›).1 hcomment
      · unfold Quoted.atLineEnd
        split
        · exact absurd (List.cons.inj ‹_›).1 hn
        · exact absurd (List.cons.inj ‹_›).1 hr
        · rfl

/-- A kind of characters that a line can begin with. -/
theorem beginsLine_of_kind {p : Char → Bool}
    (hp : [' ', '\t', '#', '\n', '\r'].any p = false) {c : Char} (hc : p c = true)
    (cs : List Char) : beginsLine (c :: cs) = true := by
  have hne : ∀ d ∈ [' ', '\t', '#', '\n', '\r'], c ≠ d := by
    rintro d hd rfl
    exact List.any_eq_false.mp hp c hd hc
  simp only [List.mem_cons, List.not_mem_nil, or_false, forall_eq_or_imp, forall_eq] at hne
  simp [beginsLine, Quoted.isSpace, hne]

/-- A value can be a text. -/
theorem beginsLine_write (text : String) : beginsLine (Quoted.write text) = true := by
  have hdelimiter (style : Style) (rest : List Char) :
      beginsLine (style.delimiter ++ rest) = true := by
    cases style <;> rfl
  rw [Quoted.write, Quoted.writeStyle, List.append_assoc, List.append_assoc]
  exact hdelimiter _ _

/-- A value can be a number. -/
theorem beginsLine_toDigits (n : Nat) : beginsLine (Nat.toDigits 10 n) = true := by
  obtain ⟨c, cs, hcs⟩ := List.exists_cons_of_ne_nil (Nat.toDigits_ne_nil (n := n) (b := 10))
  have hc : c.isDigit = true := Token.isDigit_of_mem (n := n) (by simp [hcs])
  rw [hcs]
  exact beginsLine_of_kind (by decide) hc cs

section Lines

variable {name : String}

/-- A line can begin with a name. -/
theorem beginsLine_of_isPlainName (hname : isPlainName name = true) (rest : List Char) :
    beginsLine (name.toList ++ rest) = true := by
  obtain ⟨c, cs, hcs, hc⟩ := exists_cons_of_isPlainName hname
  rw [hcs, List.cons_append]
  exact beginsLine_of_kind (by decide) hc _

/-- An assignment on a line of its own is read. -/
theorem readLine_assign (hname : isPlainName name = true) {value rest : List Char} {v : Value}
    (hbegin : beginsLine value = true)
    (hvalue : readValue maxDepth (value ++ '\n' :: rest) = some (v, '\n' :: rest)) :
    readLine (name.toList ++ ' ' :: '=' :: ' ' :: (value ++ '\n' :: rest)) =
      some (.assign (.plain name) v, rest) := by
  have hkey : readKey (name.toList ++ ' ' :: '=' :: ' ' :: (value ++ '\n' :: rest)) =
      some (.plain name, '=' :: ' ' :: (value ++ '\n' :: rest)) := by
    apply readKey_append hname (by decide)
    · rfl
    · exact fun more h => absurd (List.cons.inj h).1 (by decide)
  have hspaces : dropSpaces (' ' :: (value ++ '\n' :: rest)) = value ++ '\n' :: rest :=
    dropSpaces_of_beginsLine hbegin ('\n' :: rest)
  have hend : endLine ('\n' :: rest) = some rest := rfl
  unfold readLine
  split
  · exact absurd ‹_› (append_ne_cons hname (by decide) _ _)
  · exact absurd ‹_› (append_ne_cons hname (by decide) _ _)
  · rw [hkey]
    simp only [Option.bind_eq_bind, Option.bind_some, expect, if_true, hspaces, hvalue, hend]
    rfl

/-- A header on a line of its own is read. -/
theorem readLine_openTable (hname : isPlainName name = true) (rest : List Char) :
    readLine ('[' :: (name.toList ++ ']' :: '\n' :: rest)) =
      some (.openTable (.plain name), rest) := by
  have hkey : readKey (name.toList ++ ']' :: '\n' :: rest) =
      some (.plain name, ']' :: '\n' :: rest) := by
    apply readKey_append hname (by decide)
    · rfl
    · exact fun more h => absurd (List.cons.inj h).1 (by decide)
  have hend : endLine ('\n' :: rest) = some rest := rfl
  rw [readLine, hkey]
  · simp only [Option.bind_eq_bind, Option.bind_some, expect, if_true, hend]
    rfl
  · exact fun more => append_ne_cons hname (by decide) _ more

/-- A doubled header on a line of its own is read. -/
theorem readLine_openElement (hname : isPlainName name = true) (rest : List Char) :
    readLine ('[' :: '[' :: (name.toList ++ ']' :: ']' :: '\n' :: rest)) =
      some (.openElement (.plain name), rest) := by
  have hkey : readKey (name.toList ++ ']' :: ']' :: '\n' :: rest) =
      some (.plain name, ']' :: ']' :: '\n' :: rest) := by
    apply readKey_append hname (by decide)
    · rfl
    · exact fun more h => absurd (List.cons.inj h).1 (by decide)
  have hend : endLine ('\n' :: rest) = some rest := rfl
  rw [readLine, hkey]
  simp only [Option.bind_eq_bind, Option.bind_some, expect, if_true, hend]
  rfl

end Lines

/-! ## Blocks of lines -/

/-- More lines may be read than there are. -/
theorem readLinesWithin_mono {fuel more : Nat} {cs : List Char} {lines : List Line}
    (h : readLinesWithin fuel cs = some lines) (hmore : fuel ≤ more) :
    readLinesWithin more cs = some lines := by
  induction fuel generalizing more cs lines with
  | zero => cases h
  | succ fuel ih =>
      obtain ⟨more, rfl⟩ := Nat.exists_eq_add_of_le' (Nat.lt_of_lt_of_le (Nat.succ_pos fuel) hmore)
      have hle : fuel ≤ more := by omega
      rw [readLinesWithin] at h ⊢
      split at h
      · exact h
      · split at h
        · rename_i hsilent
          rw [if_pos hsilent]
          obtain ⟨rest, hend, hrest⟩ := Option.bind_eq_some_iff.mp h
          rw [hend, Option.bind_some]
          exact ih hrest hle
        · rename_i hsilent
          rw [if_neg hsilent]
          simp only [Option.bind_eq_bind, Option.bind_eq_some_iff] at h ⊢
          obtain ⟨⟨line, rest⟩, hline, found, hrest, hlines⟩ := h
          exact ⟨⟨line, rest⟩, hline, found, ih hrest hle, hlines⟩

/-- A block of text is read as some lines, whatever lines follow it. -/
def Reads (block : List Char) (lines : List Line) : Prop :=
  ∀ (fuel : Nat) (rest : List Char) (found : List Line), readLinesWithin fuel rest = some found →
    readLinesWithin (fuel + block.length) (block ++ rest) = some (lines ++ found)

namespace Reads

/-- Nothing is read as no lines. -/
theorem nil : Reads [] [] := fun _ _ _ h => h

/-- A block and one after it. -/
theorem append {first second : List Char} {lines more : List Line} (hfirst : Reads first lines)
    (hsecond : Reads second more) : Reads (first ++ second) (lines ++ more) := by
  intro fuel rest found h
  rw [List.append_assoc, List.append_assoc, List.length_append, Nat.add_comm first.length,
    ← Nat.add_assoc]
  exact hfirst _ _ _ (hsecond _ _ _ h)

/-- Blocks one after the other. -/
theorem flatMap {α : Type} {block : α → List Char} {lines : α → List Line} (xs : List α)
    (h : ∀ x ∈ xs, Reads (block x) (lines x)) : Reads (xs.flatMap block) (xs.flatMap lines) := by
  induction xs with
  | nil => exact nil
  | cons x xs ih =>
      rw [List.flatMap_cons, List.flatMap_cons]
      exact append (h x List.mem_cons_self) (ih fun y hy => h y (List.mem_cons_of_mem _ hy))

/-- A blank line says nothing. -/
theorem blank : Reads ['\n'] [] := by
  intro fuel rest found h
  exact h

/-- A line that is read wherever it stands. -/
theorem line {block : List Char} (hbegin : beginsLine block = true) {line : Line}
    (h : ∀ rest, readLine (block ++ rest) = some (line, rest)) : Reads block [line] := by
  intro fuel rest found hfound
  have hone : readLinesWithin (fuel + 1) (block ++ rest) = some ([line] ++ found) := by
    rw [readLinesWithin, dropSpaces_of_beginsLine hbegin]
    split
    · rename_i hnil
      rw [(List.append_eq_nil_iff.mp hnil).1] at hbegin
      exact absurd hbegin (by decide)
    · rw [isSilent_of_beginsLine hbegin, if_neg Bool.false_ne_true, h]
      simp only [Option.bind_eq_bind, Option.bind_some, hfound]
      rfl
  apply readLinesWithin_mono hone
  cases block with
  | nil => exact absurd hbegin (by decide)
  | cons c cs => rw [List.length_cons]; omega

section Written

variable {name : String}

/-- A line that gives a name a value. -/
theorem assign (hname : isPlainName name = true) {value : List Char} {v : Value}
    (hbegin : beginsLine value = true)
    (hvalue : ∀ rest, readValue maxDepth (value ++ '\n' :: rest) = some (v, '\n' :: rest)) :
    Reads (name.toList ++ [' ', '=', ' '] ++ value ++ ['\n']) [.assign (.plain name) v] := by
  apply line
  · rw [List.append_assoc, List.append_assoc]
    exact beginsLine_of_isPlainName hname _
  · intro rest
    rw [← readLine_assign hname hbegin (hvalue rest)]
    simp

/-- A header with a blank line before it. -/
theorem openTable (hname : isPlainName name = true) :
    Reads ('\n' :: '[' :: (name.toList ++ [']', '\n'])) [.openTable (.plain name)] := by
  have hline : Reads ('[' :: (name.toList ++ [']', '\n'])) [.openTable (.plain name)] := by
    apply line (by rfl)
    intro rest
    rw [← readLine_openTable hname rest]
    simp
  exact append blank hline

/-- A doubled header with a blank line before it. -/
theorem openElement (hname : isPlainName name = true) :
    Reads ('\n' :: '[' :: '[' :: (name.toList ++ [']', ']', '\n']))
      [.openElement (.plain name)] := by
  have hline : Reads ('[' :: '[' :: (name.toList ++ [']', ']', '\n']))
      [.openElement (.plain name)] := by
    apply line (by rfl)
    intro rest
    rw [← readLine_openElement hname rest]
    simp
  exact append blank hline

end Written

end Reads

/-- A block is read as a document of its own. -/
theorem readLines_of_reads {text : String} {lines : List Line} (h : Reads text.toList lines)
    (hmark : text.toList.head? ≠ some '\uFEFF') : readLines text = some lines := by
  have hend : readLinesWithin 1 [] = some [] := rfl
  have hread := h _ _ _ hend
  rw [List.append_nil, List.append_nil, Nat.add_comm] at hread
  rw [readLines, if_neg hmark, hread]

end SmartLock.Toml
