import Mathlib.Data.List.Forall2
import Mathlib.Tactic.IntervalCases
import Telemetry.Proofs.Documents.NumberTexts

/-! The tokens of the text of a value. -/

namespace Telemetry.Document

-----------------------------------------------------------------------------------------
-- Scanning one text after another
-----------------------------------------------------------------------------------------

namespace Scan

/-- The tokens of a scan that ends here, in reverse. Only a word can end with the text. -/
def finish : List Token × Scan → Option (List Token)
  | (tokens, .between) => some tokens
  | (tokens, .word chars) => (readWord? chars.reverse).map fun value => .literal value :: tokens
  | _ => none

/-- Whether some characters are scanned as some tokens, whatever stands before them. -/
def Yields (chars : List Char) (tokens : List Token) : Prop :=
  ∀ before, ∃ state, chars.foldlM step (before, .between) = some state
    ∧ finish state = some (tokens.reverse ++ before)

/-- A character that belongs to no word ends the word before it. -/
theorem step_of_finish {state : List Token × Scan} {tokens : List Token} {c : Char}
    (finished : finish state = some tokens) (apart : isWordChar c = false)
    : step state c = startToken tokens c := by
  obtain ⟨before, scan⟩ := state
  cases scan with
  | between => cases finished; rfl
  | word chars =>
      obtain ⟨value, word, rfl⟩ := Option.map_eq_some_iff.mp finished
      simp [step, apart, word]
  | text | escape | hex => cases finished

theorem yields_nil : Yields [] [] := fun before => ⟨(before, .between), rfl, rfl⟩

/-- The characters that are tokens of their own. -/
def Marks (c : Char) (token : Token) : Prop :=
  isWordChar c = false ∧ ∀ before, startToken before c = some (token :: before, .between)

theorem marks_beginList : Marks '[' .beginList := ⟨by decide, fun _ => rfl⟩
theorem marks_endList : Marks ']' .endList := ⟨by decide, fun _ => rfl⟩
theorem marks_beginObject : Marks '\x7b' .beginObject := ⟨by decide, fun _ => rfl⟩
theorem marks_endObject : Marks '\x7d' .endObject := ⟨by decide, fun _ => rfl⟩
theorem marks_comma : Marks ',' .comma := ⟨by decide, fun _ => rfl⟩
theorem marks_colon : Marks ':' .colon := ⟨by decide, fun _ => rfl⟩

/-- Texts with such a character between them are scanned one after the other. -/
theorem Yields.append {first last : List Char} {tokens more : List Token} {c : Char} {token : Token}
    (h : Yields first tokens) (mark : Marks c token) (later : Yields last more)
    : Yields (first ++ c :: last) (tokens ++ token :: more) := by
  intro before
  obtain ⟨state, scanned, finished⟩ := h before
  obtain ⟨final, rest, done⟩ := later (token :: (tokens.reverse ++ before))
  refine ⟨final, ?_, by simpa using done⟩
  have marked : step state c = some (token :: (tokens.reverse ++ before), .between) :=
    (step_of_finish finished mark.1).trans (mark.2 _)
  simp only [List.foldlM_append, List.foldlM_cons, scanned, marked, rest, Option.bind_eq_bind,
    Option.bind_some]

theorem Yields.cons {chars : List Char} {tokens : List Token} {c : Char} {token : Token}
    (mark : Marks c token) (h : Yields chars tokens)
    : Yields (c :: chars) (token :: tokens) :=
  yields_nil.append mark h

theorem Yields.concat {chars : List Char} {tokens : List Token} {c : Char} {token : Token}
    (h : Yields chars tokens) (mark : Marks c token)
    : Yields (chars ++ [c]) (tokens ++ [token]) :=
  h.append mark yields_nil

/-- Texts that are joined by commas are scanned one after the other. -/
theorem Yields.intercalate {parts : List (List Char)} {tokens : List (List Token)}
    (h : List.Forall₂ Yields parts tokens)
    : Yields ([','].intercalate parts) ([Token.comma].intercalate tokens) := by
  induction h with
  | nil => exact yields_nil
  | @cons part own parts tokens first rest ih =>
      cases rest with
      | nil => simpa using first
      | cons second others => simpa using first.append marks_comma ih

/-- A text is scanned as a whole. -/
theorem Yields.tokens? {chars : List Char} {tokens : List Token} (h : Yields chars tokens)
    : Document.tokens? chars = some tokens := by
  obtain ⟨⟨before, scan⟩, scanned, finished⟩ := h []
  rw [List.append_nil] at finished
  simp only [Document.tokens?, scanned, Option.bind_eq_bind, Option.bind_some]
  cases scan with
  | between => cases finished; simp
  | word chars =>
      obtain ⟨value, word, same⟩ := Option.map_eq_some_iff.mp finished
      simp only [word, Option.bind_some, same, List.reverse_reverse]
  | text | escape | hex => cases finished

-----------------------------------------------------------------------------------------
-- Words
-----------------------------------------------------------------------------------------

theorem startToken_of_isWordChar {c : Char} (h : isWordChar c = true) (before : List Token)
    : startToken before c = some (before, .word [c]) := by
  unfold startToken
  split
  case h_12 => rw [if_pos h]
  all_goals cases h

theorem foldlM_step_word {chars : List Char} (h : ∀ c ∈ chars, isWordChar c = true)
    (tokens : List Token) (before : List Char)
    : chars.foldlM step (tokens, .word before)
      = some (tokens, .word (chars.reverse ++ before)) := by
  induction chars generalizing before with
  | nil => rfl
  | cons c rest ih =>
      have next : step (tokens, .word before) c = some (tokens, .word (c :: before)) := by
        simp [step, h c List.mem_cons_self]
      rw [List.foldlM_cons, next, Option.bind_eq_bind, Option.bind_some,
        ih (fun other member => h other (List.mem_cons_of_mem _ member))]
      simp

/-- A word is scanned as the value that it stands for. -/
theorem yields_word {chars : List Char} {value : Value} (letters : ∀ c ∈ chars, isWordChar c = true)
    (read : readWord? chars = some value) (nonempty : chars ≠ [])
    : Yields chars [.literal value] := by
  intro before
  obtain ⟨c, rest, rfl⟩ := List.exists_cons_of_ne_nil nonempty
  refine ⟨(before, .word (rest.reverse ++ [c])), ?_, ?_⟩
  · have first : step (before, .between) c = some (before, .word [c]) :=
      startToken_of_isWordChar (letters c List.mem_cons_self) before
    rw [List.foldlM_cons, first, Option.bind_eq_bind, Option.bind_some]
    exact foldlM_step_word (fun other member => letters other (List.mem_cons_of_mem _ member)) _ _
  · simp [finish, read]

-----------------------------------------------------------------------------------------
-- Quoted texts
-----------------------------------------------------------------------------------------

/-- A control character is spelled by its number, and read back from it. -/
theorem foldlM_step_escapeControl {c : Char} (h : c.toNat < 32) (tokens : List Token)
    (before : List Char)
    : (Value.escapeControl c).foldlM step (tokens, .text before none)
      = some (tokens, .text (c :: before) none) := by
  have spelled : ∀ n < 32,
      (Value.escapeControl (Char.ofNat n)).foldlM step (tokens, .text before none)
        = some (tokens, .text (Char.ofNat n :: before) none) := by
    intro n small
    interval_cases n <;> rfl
  have same : Char.ofNat c.toNat = c := Char.ofNat_toNat c
  exact same ▸ spelled c.toNat h

/-- What is written for a character is read as that character. -/
theorem foldlM_step_escapeChar (c : Char) (tokens : List Token) (before : List Char)
    : (Value.escapeChar c).foldlM step (tokens, .text before none)
      = some (tokens, .text (c :: before) none) := by
  unfold Value.escapeChar
  split
  case h_8 quote backslash _ _ _ _ _ =>
    split
    · next control => exact foldlM_step_escapeControl control tokens before
    · next plain =>
      have notQuote : c ≠ '"' := quote
      have notBackslash : c ≠ '\\' := backslash
      simp [step, notQuote, notBackslash, plain]
  all_goals rfl

theorem foldlM_step_text (chars : List Char) (tokens : List Token) (before : List Char)
    : (chars.flatMap Value.escapeChar).foldlM step (tokens, .text before none)
      = some (tokens, .text (chars.reverse ++ before) none) := by
  induction chars generalizing before with
  | nil => rfl
  | cons c rest ih =>
      rw [List.flatMap_cons, List.foldlM_append, foldlM_step_escapeChar, Option.bind_eq_bind,
        Option.bind_some, ih]
      simp

/-- A quoted text is scanned as that text. -/
theorem yields_renderText (text : String)
    : Yields (Value.renderText text).toList [.text text] := by
  intro before
  have opened : step (before, .between) '"' = some (before, .text [] none) := rfl
  have closed : step (before, .text text.toList.reverse none) '"'
      = some (.text text :: before, .between) := by
    simp [step]
  refine ⟨(.text text :: before, .between), ?_, rfl⟩
  simp only [Value.renderText, String.toList_ofList, List.foldlM_cons, List.foldlM_append, opened,
    foldlM_step_text, List.append_nil, closed, List.foldlM_nil, Option.bind_eq_bind,
    Option.bind_some, Option.pure_def]

end Scan

end Telemetry.Document
