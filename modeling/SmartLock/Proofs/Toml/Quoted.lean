/-
# Quoted texts are read back

Whatever characters a text holds, it is read back from the quotation that is written for it
(`read?_write`), if no quote follows.

What may stand between quotes of a style for a text is the relation `Quotes`; reading goes through
it (`Quotes.readBody`), and what each style writes is in it (`quotes_styleOf`).  Tripled quotes may
hold up to two quotes in a row, so the relation counts the quotes that stand right before: this is
what keeps the closing quotes apart from those of the text.
-/
import Mathlib.Data.List.TakeWhile
import SmartLock.Toml.Quoted

namespace SmartLock.Toml

/-! ## Styles -/

namespace Style

variable {style : Style}

/-- A quote is no backslash. -/
theorem mark_ne_backslash (style : Style) : style.mark ≠ '\\' := by
  cases style <;> decide

/-- Escapes stand between double quotes. -/
theorem mark_of_hasEscapes (h : style.hasEscapes = true) : style.mark = '"' := by
  cases style <;> first | rfl | cases h

/-- A tripled quotation has three quotes at either end. -/
theorem delimiter_of_isMultiline (h : style.isMultiline = true) :
    style.delimiter = [style.mark, style.mark, style.mark] := by
  simp [delimiter, h]

/-- Any other quotation has one. -/
theorem delimiter_of_not_isMultiline (h : style.isMultiline = false) :
    style.delimiter = [style.mark] := by
  simp [delimiter, h]

/-- The number of quotes in a row that may stand in a text. -/
def quotesAllowed (style : Style) : Nat := if style.isMultiline then 2 else 0

end Style

namespace Quoted

/-! ## What may stand between quotes -/

/-- An escape and the character that it stands for. -/
inductive Escape (c : Char) : List Char → Prop
  | letter {e : Char} (he : unescape? e = some c) : Escape c ['\\', e]
  | number (hc : c.toNat < 256) : Escape c (numberEscape c)

/-- A text, and what may stand for it between quotes of a style, right after `run` quotes. -/
inductive Quotes (style : Style) : Nat → List Char → List Char → Prop
  | nil {run : Nat} : Quotes style run [] []
  | plain {run : Nat} {c : Char} {text body : List Char} (hmark : c ≠ style.mark)
      (hback : c = '\\' → style.hasEscapes = false)
      (hplain : isPlain c = true ∨ c = '\n' ∧ style.isMultiline = true)
      (h : Quotes style 0 text body) : Quotes style run (c :: text) (c :: body)
  | escape {run : Nat} {c : Char} {e text body : List Char} (hstyle : style.hasEscapes = true)
      (he : Escape c e) (h : Quotes style 0 text body) : Quotes style run (c :: text) (e ++ body)
  | quote {run : Nat} {text body : List Char} (hstyle : style.isMultiline = true) (hrun : run < 2)
      (h : Quotes style (run + 1) text body) :
      Quotes style run (style.mark :: text) (style.mark :: body)

/-- An escape begins with a backslash. -/
theorem Escape.exists_eq_cons {c : Char} {e : List Char} (h : Escape c e) :
    ∃ rest, e = '\\' :: rest := by
  cases h <;> exact ⟨_, rfl⟩

/-! ## Reading one character -/

/-- A quote closes the text, or belongs to it. -/
theorem readBody_mark (style : Style) (rest : List Char) :
    readBody style false (style.mark :: rest) =
      match close? style rest with
      | some done => some done
      | none => cons? (some style.mark) (readBody style false rest) := by
  rw [readBody.eq_def]
  exact if_pos rfl

/-- A character that is no quote and begins no escape stands for itself. -/
theorem readBody_plain {style : Style} {c : Char} (hmark : c ≠ style.mark)
    (hback : c = '\\' → style.hasEscapes = false)
    (hplain : isPlain c = true ∨ c = '\n' ∧ style.isMultiline = true) (rest : List Char) :
    readBody style false (c :: rest) = cons? (some c) (readBody style false rest) := by
  have hescape : ¬ (decide (c = '\\') && style.hasEscapes) = true := by
    intro hboth
    rw [Bool.and_eq_true, decide_eq_true_eq] at hboth
    rw [hback hboth.1] at hboth
    exact absurd hboth.2 (by decide)
  rw [readBody.eq_def]
  dsimp only
  rw [if_neg hmark, if_neg hescape, if_neg (by simp)]
  rcases hplain with hplain | ⟨rfl, hstyle⟩
  · exact if_pos hplain
  · rw [if_neg (by decide), if_pos (by simp [hstyle]), if_neg (by decide)]

/-! ## Reading escapes -/

/-- A capital digit is read as its number. -/
theorem hexValue?_capitalDigit {n : Nat} (h : n < 16) : hexValue? (capitalDigit n) = some n := by
  have hall : ∀ n : Fin 16, hexValue? (capitalDigit n) = some n.val := by decide
  exact hall ⟨n, h⟩

/-- The four digits of an escape by number are read as the character. -/
theorem charOfHex?_number {c : Char} (h : c.toNat < 256) :
    charOfHex? ['0', '0', capitalDigit (c.toNat / 16), capitalDigit (c.toNat % 16)] = some c := by
  have hzero : hexValue? '0' = some 0 := rfl
  have hvalid : c.toNat.isValidChar := c.valid
  simp only [charOfHex?, List.foldlM_cons, List.foldlM_nil, hzero,
    hexValue?_capitalDigit (show c.toNat / 16 < 16 by omega),
    hexValue?_capitalDigit (Nat.mod_lt c.toNat (show 16 > 0 by decide)), Option.map_eq_map,
    Option.map_some, Option.bind_eq_bind, Option.bind_some, Option.pure_def]
  simp only [Nat.mul_zero, Nat.zero_add, Nat.div_add_mod, if_pos hvalid, Char.ofNat_toNat]

/-- The letters of escapes are neither white space nor the heads of escapes by number. -/
theorem of_unescape? {c e : Char} (h : unescape? e = some c) :
    isSpace e = false ∧ e ≠ '\n' ∧ e ≠ '\r' ∧ e ≠ 'u' ∧ e ≠ 'U' := by
  unfold unescape? at h
  split at h <;> first | decide | cases h

/-- An escape is read as its character. -/
theorem readBody_escape {style : Style} (hstyle : style.hasEscapes = true) {c : Char}
    {e : List Char} (he : Escape c e) (rest : List Char) :
    readBody style false (e ++ rest) = cons? (some c) (readBody style false rest) := by
  have hmark : ¬ '\\' = style.mark := fun h => Style.mark_ne_backslash style h.symm
  cases he with
  | letter h =>
      rename_i e
      obtain ⟨hspace, hn, hr, hu, hU⟩ := of_unescape? h
      have hend : atLineEnd (List.dropWhile isSpace (e :: rest)) = false := by
        rw [List.dropWhile_cons_of_neg (by simp [hspace])]
        unfold atLineEnd
        split <;> simp_all
      rw [List.cons_append, List.cons_append, List.nil_append, readBody.eq_def]
      dsimp only
      rw [if_neg hmark, if_pos (by simp [hstyle]), hend, Bool.and_false, if_neg (by decide)]
      split <;> simp_all
  | number h =>
      rw [numberEscape]
      simp only [List.cons_append, List.nil_append]
      rw [readBody.eq_def]
      dsimp only
      rw [if_neg hmark, if_pos (by simp [hstyle]),
        if_neg (by simp [isSpace, atLineEnd, List.dropWhile])]
      simp only [charOfHex?_number h]

/-! ## Reading quotations -/

/-- What stands between quotes begins with at most two of them, those before it included. -/
theorem Quotes.run_add_le {style : Style} {run : Nat} {text body : List Char}
    (h : Quotes style run text body) (hrun : run ≤ 2) :
    run + (body.takeWhile (· = style.mark)).length ≤ 2 := by
  induction h with
  | nil => simpa using hrun
  | plain hmark => simpa [List.takeWhile_cons, hmark] using hrun
  | escape hstyle he =>
      obtain ⟨rest, rfl⟩ := he.exists_eq_cons
      simpa [List.takeWhile_cons, (Style.mark_ne_backslash style).symm] using hrun
  | quote hstyle hlt h ih =>
      have := ih hlt
      simp only [List.takeWhile_cons, decide_true, if_true, List.length_cons]
      omega

/-- Nothing but quotes stands for itself. -/
theorem Quotes.eq_of_all {style : Style} {run : Nat} {text body : List Char}
    (h : Quotes style run text body) (hall : ∀ c ∈ body, c = style.mark) : text = body := by
  induction h with
  | nil => rfl
  | plain hmark => exact absurd (hall _ List.mem_cons_self) hmark
  | escape hstyle he =>
      obtain ⟨rest, rfl⟩ := he.exists_eq_cons
      exact absurd (hall '\\' (by simp)).symm (Style.mark_ne_backslash _)
  | quote hstyle hlt h ih => rw [ih fun c hc => hall c (List.mem_cons_of_mem _ hc)]

/-- Tripled quotes are closed by the last three of a row of quotes. -/
theorem close?_of_all {style : Style} (hstyle : style.isMultiline = true) {body rest : List Char}
    (hall : ∀ c ∈ body, c = style.mark) (hlength : body.length ≤ 2)
    (hrest : rest.head? ≠ some style.mark) :
    close? style (body ++ (style.mark :: style.mark :: rest)) = some (body, rest) := by
  have hbody : body = List.replicate body.length style.mark := List.eq_replicate_of_mem hall
  have hnone : rest.takeWhile (· = style.mark) = [] := by
    cases rest with
    | nil => rfl
    | cons c rest => exact List.takeWhile_cons_of_neg (by simpa using hrest)
  have htake : (body ++ (style.mark :: style.mark :: rest)).takeWhile (· = style.mark) =
      body ++ [style.mark, style.mark] := by
    rw [List.takeWhile_append_of_pos (by simpa using hall)]
    simp [hnone]
  have hlen : (body ++ [style.mark, style.mark]).length = body.length + 2 := by simp
  have hdrop : (body ++ (style.mark :: style.mark :: rest)).drop (body.length + 2) = rest := by
    rw [List.drop_append, List.drop_eq_nil_of_le (by omega)]
    simp
  rw [close?, if_pos hstyle, htake, hlen]
  simp only [Nat.min_eq_left hlength, hdrop, ← hbody]

/-- At most one quote more does not close tripled quotes. -/
theorem close?_of_takeWhile {style : Style} (hstyle : style.isMultiline = true) {rest : List Char}
    (h : (rest.takeWhile (· = style.mark)).length ≤ 1) : close? style rest = none := by
  rw [close?, if_pos hstyle]
  split <;> first | rfl | omega

/-- The closing quotes end the text. -/
theorem readBody_delimiter (style : Style) {rest : List Char}
    (hrest : rest.head? ≠ some style.mark) :
    readBody style false (style.delimiter ++ rest) = some ([], rest) := by
  cases hstyle : style.isMultiline with
  | false =>
      rw [Style.delimiter_of_not_isMultiline hstyle, List.singleton_append, readBody_mark, close?,
        hstyle]
      rfl
  | true =>
      have hclose : close? style ([style.mark, style.mark] ++ rest) = some ([], rest) := by
        have hempty := close?_of_all hstyle (List.forall_mem_nil _) (Nat.zero_le 2) hrest
        exact hempty
      rw [Style.delimiter_of_isMultiline hstyle, List.cons_append, readBody_mark, hclose]

/-- A quote in the text: either the quotes go on up to the closing ones, or something else comes
first. -/
theorem Quotes.readBody_quote {style : Style} (hstyle : style.isMultiline = true) {run : Nat}
    {text body rest : List Char} (h : Quotes style (run + 1) text body) (hrun : run + 1 ≤ 2)
    (hrest : rest.head? ≠ some style.mark)
    (ih : readBody style false (body ++ (style.delimiter ++ rest)) = some (text, rest)) :
    readBody style false (style.mark :: (body ++ (style.delimiter ++ rest))) =
      some (style.mark :: text, rest) := by
  have hfew := h.run_add_le hrun
  rw [readBody_mark]
  by_cases hall : ∀ c ∈ body, c = style.mark
  · have hbody : body.takeWhile (· = style.mark) = body := by
      rw [List.takeWhile_eq_self_iff]
      simpa using hall
    rw [hbody] at hfew
    -- The quote that was read now counts as one of the three that are needed.
    have hswap : body ++ (style.delimiter ++ rest) =
        style.mark :: body ++ (style.mark :: style.mark :: rest) := by
      have hcomm : body ++ [style.mark] = style.mark :: body := by
        rw [List.eq_replicate_of_mem hall, ← List.replicate_succ', List.replicate_succ]
      rw [Style.delimiter_of_isMultiline hstyle, ← hcomm]
      simp
    rw [hswap, close?_of_all hstyle (by simpa using hall) (by rw [List.length_cons]; omega) hrest,
      h.eq_of_all hall]
  · have hother : (body ++ (style.delimiter ++ rest)).takeWhile (· = style.mark) =
        body.takeWhile (· = style.mark) := by
      rw [List.takeWhile_append, if_neg]
      intro hlength
      apply hall
      have hself := (List.takeWhile_prefix (· = style.mark)).eq_of_length hlength
      simpa using List.takeWhile_eq_self_iff.mp hself
    rw [close?_of_takeWhile hstyle (by rw [hother]; omega), ih]
    rfl

/-- A text is read back from what stands for it between quotes. -/
theorem Quotes.readBody {style : Style} {run : Nat} {text body : List Char}
    (h : Quotes style run text body) (hrun : run ≤ 2) {rest : List Char}
    (hrest : rest.head? ≠ some style.mark) :
    readBody style false (body ++ (style.delimiter ++ rest)) = some (text, rest) := by
  induction h with
  | nil => exact readBody_delimiter style hrest
  | plain hmark hback hplain h ih =>
      rw [List.cons_append, readBody_plain hmark hback hplain, ih (by omega)]
      rfl
  | escape hstyle he h ih =>
      rw [List.append_assoc, readBody_escape hstyle he, ih (by omega)]
      rfl
  | quote hstyle hlt h ih => exact h.readBody_quote hstyle hlt hrest (ih hlt)

/-! ## Writing quotations -/

/-- Control characters have small numbers. -/
theorem toNat_lt_of_not_isPlain {c : Char} (h : ¬ isPlain c = true) : c.toNat < 256 := by
  by_contra hlarge
  apply h
  have hspace : ' ' ≤ c := by
    rw [Char.le_def, UInt32.le_iff_toNat_le]
    exact Nat.le_trans (by decide) (Nat.le_of_not_lt hlarge)
  have hdelete : c ≠ '\x7f' := by
    rintro rfl
    exact hlarge (by decide)
  simp [isPlain, hspace, hdelete]

/-- A character other than a quote, between double quotes. -/
theorem quotes_writeChar {style : Style} (hstyle : style.hasEscapes = true) {c : Char}
    (hquote : c ≠ '"') {run : Nat} {text body : List Char} (h : Quotes style 0 text body) :
    Quotes style run (c :: text) (writeChar style c ++ body) := by
  have hmark := Style.mark_of_hasEscapes hstyle
  unfold writeChar
  split
  · exact .escape hstyle (.letter rfl) h
  · exact .escape hstyle (.letter rfl) h
  · cases hline : style.isMultiline with
    | false => exact .escape hstyle (.letter rfl) h
    | true =>
        exact .plain (by rw [hmark]; decide) (fun hc => absurd hc (by decide)) (.inr ⟨rfl, hline⟩) h
  · exact .escape hstyle (.letter rfl) h
  · exact .escape hstyle (.letter rfl) h
  · exact .escape hstyle (.letter rfl) h
  · rename_i hback
    by_cases hplain : isPlain c
    · rw [if_pos hplain]
      exact .plain (hmark ▸ hquote) (fun hc => absurd hc hback) (.inl hplain) h
    · rw [if_neg hplain]
      exact .escape hstyle (.number (toNat_lt_of_not_isPlain hplain)) h

/-- A text that is written with escapes. -/
theorem quotes_writeEscaped {style : Style} (hstyle : style.hasEscapes = true) (run : Nat)
    (text : List Char) : Quotes style run text (writeEscaped style run text) := by
  have hmark := Style.mark_of_hasEscapes hstyle
  induction text generalizing run with
  | nil => exact .nil
  | cons c text ih =>
      by_cases hquote : c = '"'
      · subst hquote
        rw [writeEscaped, if_pos rfl]
        by_cases hfew : style.isMultiline && run < 2
        · rw [if_pos hfew]
          rw [Bool.and_eq_true, decide_eq_true_eq] at hfew
          have hmore := Quotes.quote hfew.1 hfew.2 (ih (run + 1))
          rwa [hmark] at hmore
        · rw [if_neg hfew]
          exact .escape hstyle (.letter rfl) (ih 0)
      · rw [writeEscaped, if_neg hquote]
        exact quotes_writeChar hstyle hquote (ih 0)

/-- The run so far counts. -/
theorem le_longestRun (mark : Char) (run : Nat) (text : List Char) :
    run ≤ longestRun mark run text := by
  induction text generalizing run with
  | nil => exact Nat.le_refl _
  | cons c text ih =>
      rw [longestRun]
      split
      · exact Nat.le_of_succ_le (ih (run + 1))
      · exact Nat.le_max_left _ _

/-- A text without control characters stands for itself where there are no escapes, if it holds no
more quotes in a row than the style allows. -/
theorem quotes_self {style : Style} (hstyle : style.hasEscapes = false) {run : Nat}
    {text : List Char}
    (hplain : ∀ c ∈ text, isPlain c = true ∨ c = '\n' ∧ style.isMultiline = true)
    (hruns : longestRun style.mark run text ≤ style.quotesAllowed) :
    Quotes style run text text := by
  induction text generalizing run with
  | nil => exact .nil
  | cons c text ih =>
      have htext := fun d hd => hplain d (List.mem_cons_of_mem c hd)
      rw [longestRun] at hruns
      by_cases hmark : c = style.mark
      · rw [if_pos hmark] at hruns
        have hrun := Nat.le_trans (le_longestRun _ _ _) hruns
        have hline : style.isMultiline = true := by
          unfold Style.quotesAllowed at hrun
          split at hrun <;> first | assumption | omega
        rw [Style.quotesAllowed, if_pos hline] at hrun
        subst hmark
        exact .quote hline hrun (ih htext hruns)
      · rw [if_neg hmark] at hruns
        exact .plain hmark (fun _ => hstyle) (hplain c List.mem_cons_self)
          (ih htext (Nat.le_trans (Nat.le_max_right _ _) hruns))

/-- A text that is written without escapes stands for itself. -/
theorem quotes_styleOf_self {text : List Char} (h : (styleOf text).hasEscapes = false) :
    Quotes (styleOf text) 0 text text := by
  apply quotes_self h
  · intro c hc
    have hcontrol : text.any isControl = false → isPlain c = true ∨ c = '\n' := by
      intro hnone
      simpa [isControl, or_iff_not_imp_left] using List.any_eq_false.mp hnone c hc
    have hline : text.contains '\n' = false → c ≠ '\n' := by
      rintro hnone rfl
      simp_all
    revert h
    unfold styleOf
    dsimp only
    split_ifs <;> simp_all [Style.hasEscapes, Style.isMultiline]
  · revert h
    unfold styleOf
    dsimp only
    split_ifs <;> simp_all [Style.hasEscapes, Style.mark, Style.quotesAllowed, Style.isMultiline]

/-- Between its quotes stands what a text is written as. -/
theorem quotes_styleOf (text : List Char) : Quotes (styleOf text) 0 text
    (if (styleOf text).hasEscapes then writeEscaped (styleOf text) 0 text else text) := by
  cases h : (styleOf text).hasEscapes with
  | false => exact quotes_styleOf_self h
  | true => exact quotes_writeEscaped h 0 text

/-! ## Whole quotations -/

/-- Where quotes are not tripled, no two of them stand in a row. -/
theorem Quotes.not_two {style : Style} (hstyle : style.isMultiline = false) {run : Nat}
    {text body rest : List Char} (h : Quotes style run text body)
    (hrest : rest.head? ≠ some style.mark) (more : List Char) :
    body ++ (style.delimiter ++ rest) ≠ style.mark :: style.mark :: more := by
  rw [Style.delimiter_of_not_isMultiline hstyle]
  cases h with
  | nil =>
      intro h
      obtain ⟨-, rfl⟩ := List.cons.inj h
      exact hrest rfl
  | plain hmark => exact fun h => hmark (List.cons.inj h).1
  | escape _ he =>
      obtain ⟨e, rfl⟩ := he.exists_eq_cons
      exact fun h => Style.mark_ne_backslash style (List.cons.inj h).1.symm
  | quote h => exact absurd (h.symm.trans hstyle) (by decide)

/-- A line end at the start of a text in tripled quotes would be dropped; it stays after the line
end that is written before it. -/
theorem Quotes.dropLineEnd {style : Style} {text body : List Char} (h : Quotes style 0 text body)
    (rest : List Char) :
    dropLineEnd
        ((if text.contains '\n' then ['\n'] else []) ++ (body ++ (style.delimiter ++ rest))) =
      body ++ (style.delimiter ++ rest) := by
  by_cases hline : text.contains '\n'
  · rw [if_pos hline]
    rfl
  · rw [if_neg hline, List.nil_append]
    have hmark : style.mark ≠ '\n' ∧ style.mark ≠ '\r' := by cases style <;> decide
    have hhead : ∀ c more, body ++ (style.delimiter ++ rest) = c :: more →
        c ≠ '\n' ∧ c ≠ '\r' := by
      intro c more hcons
      cases h with
      | nil =>
          have hdelimiter : ∃ tail, style.delimiter = style.mark :: tail := by
            cases style <;> exact ⟨_, rfl⟩
          obtain ⟨tail, htail⟩ := hdelimiter
          rw [htail] at hcons
          exact (List.cons.inj hcons).1 ▸ hmark
      | plain _ _ hplain =>
          obtain rfl := (List.cons.inj hcons).1
          refine ⟨by rintro rfl; simp at hline, ?_⟩
          rintro rfl
          exact hplain.elim (absurd · (by decide)) fun h => absurd h.1 (by decide)
      | escape _ he =>
          obtain ⟨e, rfl⟩ := he.exists_eq_cons
          rw [← (List.cons.inj hcons).1]
          decide
      | quote => exact (List.cons.inj hcons).1 ▸ hmark
    unfold Quoted.dropLineEnd
    split
    · exact absurd rfl (hhead _ _ ‹_›).1
    · exact absurd rfl (hhead _ _ ‹_›).2
    · rfl

/-- A quotation whose quotes are not tripled is read in its style. -/
theorem read?_single {style : Style} (hstyle : style.isMultiline = false) {cs : List Char}
    (hcs : ∀ more, cs ≠ style.mark :: style.mark :: more) :
    read? (style.mark :: cs) = readStyle style cs := by
  unfold read?
  split
  · rename_i heq
    obtain ⟨hmark, heq⟩ := List.cons.inj heq
    exact absurd (hmark ▸ heq) (hcs _)
  · rename_i heq
    obtain ⟨hmark, heq⟩ := List.cons.inj heq
    exact absurd (hmark ▸ heq) (hcs _)
  · cases style <;> first | rfl | cases hstyle

/-- A quotation with tripled quotes is read in its style. -/
theorem read?_tripled {style : Style} (hstyle : style.isMultiline = true) (cs : List Char) :
    read? (style.mark :: style.mark :: style.mark :: cs) = readStyle style cs := by
  cases style <;> first | rfl | cases hstyle

/-- A text is read back from its quotation, if no quote follows. -/
theorem read?_write (text : String) {rest : List Char} (hdouble : rest.head? ≠ some '"')
    (hsingle : rest.head? ≠ some '\'') : read? (write text ++ rest) = some (text, rest) := by
  have hquotes := quotes_styleOf text.toList
  rw [write, writeStyle]
  generalize (if (styleOf text.toList).hasEscapes then
    writeEscaped (styleOf text.toList) 0 text.toList else text.toList) = body at hquotes ⊢
  generalize styleOf text.toList = style at hquotes ⊢
  have hrest : rest.head? ≠ some style.mark := by cases style <;> assumption
  have hread (cs : List Char) (hcs : (if style.isMultiline then dropLineEnd cs else cs) =
      body ++ (style.delimiter ++ rest)) : readStyle style cs = some (text, rest) := by
    rw [readStyle, hcs, hquotes.readBody (Nat.zero_le 2) hrest, Option.map_some]
    dsimp only
    rw [String.ofList_toList]
  cases hstyle : style.isMultiline with
  | false =>
      have hcs : style.delimiter ++ [] ++ body ++ style.delimiter ++ rest =
          style.mark :: (body ++ (style.delimiter ++ rest)) := by
        simp [Style.delimiter_of_not_isMultiline hstyle]
      rw [Bool.false_and, if_neg Bool.false_ne_true, hcs,
        read?_single hstyle (hquotes.not_two hstyle hrest)]
      exact hread _ (by rw [hstyle, if_neg Bool.false_ne_true])
  | true =>
      have hcs (gap : List Char) : style.delimiter ++ gap ++ body ++ style.delimiter ++ rest =
          style.mark :: style.mark :: style.mark ::
            (gap ++ (body ++ (style.delimiter ++ rest))) := by
        simp [Style.delimiter_of_isMultiline hstyle]
      rw [Bool.true_and, hcs, read?_tripled hstyle]
      exact hread _ (by rw [hstyle, if_pos rfl, hquotes.dropLineEnd])

end Quoted

end SmartLock.Toml
