import Mathlib.Data.List.TakeWhile
import Telemetry.Collector.Deployment

/-!
What a replay makes of a file: the readable lines whose records are accepted are staged in file
order, and every other readable line can be taken out of the file without a trace. Only a line
that is no text ends a replay.
-/

namespace Telemetry.Collector

namespace Replay

-----------------------------------------------------------------------------------------
-- Lines
-----------------------------------------------------------------------------------------

/-- Lines as the content of a file, each ended by a line feed. -/
def joinLines (lines : List (List UInt8)) : List UInt8 :=
  lines.flatMap (· ++ [10])

/-- No line has a line feed in it, as one cuts the content there. -/
theorem notMem_of_mem_splitLines {content line : List UInt8} (member : line ∈ splitLines content)
    : 10 ∉ line := by
  induction content generalizing line with
  | nil => cases member
  | cons byte rest ih =>
      rw [splitLines] at member
      split at member
      · rcases List.mem_cons.mp member with rfl | later
        · exact List.not_mem_nil
        · exact ih later
      · next other =>
        cases cut : splitLines rest with
        | nil =>
            simp only [cut, List.mem_singleton] at member
            simpa [member] using Ne.symm other
        | cons first lines =>
            simp only [cut, List.mem_cons] at member ih
            rcases member with rfl | later
            · simpa [Ne.symm other] using ih (.inl rfl)
            · exact ih (.inr later)

/-- The first line ends at the first line feed. -/
theorem splitLines_line {line : List UInt8} (single : 10 ∉ line) (rest : List UInt8)
    : splitLines (line ++ 10 :: rest) = line :: splitLines rest := by
  induction line with
  | nil => simp [splitLines]
  | cons byte line ih =>
      obtain ⟨other, single⟩ := not_or.mp (mt List.mem_cons.mpr single)
      simp [splitLines, Ne.symm other, ih single]

/-- Lines are read back from the content that they make up. -/
theorem splitLines_joinLines {lines : List (List UInt8)} (single : ∀ line ∈ lines, 10 ∉ line)
    : splitLines (joinLines lines) = lines := by
  induction lines with
  | nil => rfl
  | cons line lines ih =>
      obtain ⟨head, tail⟩ := List.forall_mem_cons.mp single
      have cut := splitLines_line head (joinLines lines)
      rw [ih tail] at cut
      simpa [joinLines] using cut

example : splitLines [97, 10, 10, 98] = [[97], [], [98]] := by decide

def isText (line : List UInt8) : Bool :=
  (lineText? line).isSome

/-- The lines of a file before the first that is no text. -/
def readable (content : List UInt8) : List (List UInt8) :=
  (splitLines content).takeWhile isText

def lineRecord? (line : List UInt8) : Option StreamRecord :=
  (lineText? line).bind record?

-----------------------------------------------------------------------------------------
-- Blank lines. A replay has no case for them and needs none, as they hold no value.
-----------------------------------------------------------------------------------------

/-- Whether a character is white space in Unicode. -/
def isSpace (c : Char) : Bool :=
  (9 ≤ c.toNat && c.toNat ≤ 13) || c.toNat = 0x20 || c.toNat = 0x85 || c.toNat = 0xa0
    || c.toNat = 0x1680 || (0x2000 ≤ c.toNat && c.toNat ≤ 0x200a) || c.toNat = 0x2028
    || c.toNat = 0x2029 || c.toNat = 0x202f || c.toNat = 0x205f || c.toNat = 0x3000

/-- Whether a line is a text of white space alone. -/
def IsBlank (line : List UInt8) : Prop :=
  ∃ text, lineText? line = some text ∧ ∀ c ∈ text.toList, isSpace c = true

/-- White space belongs to no word. -/
theorem isWordChar_of_isSpace {c : Char} (space : isSpace c = true)
    : Document.Scan.isWordChar c = false := by
  have off {sign : Char} (noSpace : isSpace sign = false) : c ≠ sign := by
    rintro rfl
    cases space.symm.trans noSpace
  have noLetter : c.isAlphanum = false := by
    simp only [isSpace, Bool.or_eq_true, Bool.and_eq_true, decide_eq_true_eq, Char.toNat] at space
    unfold Char.isAlphanum Char.isAlpha Char.isUpper Char.isLower Char.isDigit
    simp only [Bool.or_eq_false_iff, Bool.and_eq_false_iff, decide_eq_false_iff_not, ge_iff_le,
      UInt32.le_iff_toNat_le, Char.reduceVal, UInt32.reduceToNat]
    omega
  simp [Document.Scan.isWordChar, noLetter, @off '-' rfl, @off '+' rfl, @off '.' rfl]

/-- White space starts no token. -/
theorem startToken_of_isSpace {c : Char} (space : isSpace c = true) (tokens : List Document.Token)
    : Document.Scan.startToken tokens c = some (tokens, .between)
      ∨ Document.Scan.startToken tokens c = none := by
  unfold Document.Scan.startToken
  -- Some white space is passed over, and no sign of a token is white space.
  split <;> first | exact .inl rfl | cases space | skip
  exact .inr (if_neg (by simp [isWordChar_of_isSpace space]))

/-- A text of white space has no tokens. -/
theorem foldlM_step_of_isSpace {text : List Char} (blank : ∀ c ∈ text, isSpace c = true)
    : text.foldlM Document.Scan.step ([], .between) = some ([], .between)
      ∨ text.foldlM Document.Scan.step ([], .between) = none := by
  induction text with
  | nil => exact .inl rfl
  | cons c text ih =>
      obtain ⟨space, blank⟩ := List.forall_mem_cons.mp blank
      rw [List.foldlM_cons, Document.Scan.step]
      rcases startToken_of_isSpace space [] with goesOn | stops
      · simpa [goesOn] using ih blank
      · exact .inr (by simp [stops])

/-- A blank line holds no record. -/
theorem IsBlank.lineRecord?_eq_none {line : List UInt8} (blank : IsBlank line)
    : lineRecord? line = none := by
  obtain ⟨text, reads, spaces⟩ := blank
  have value : Document.parse? text = none := by
    rcases foldlM_step_of_isSpace spaces with empty | stops
    · simp [Document.parse?, Document.tokens?, empty]
    · simp [Document.parse?, Document.tokens?, stops]
  simp [lineRecord?, record?, reads, value]

-----------------------------------------------------------------------------------------
-- What is taken from a line
-----------------------------------------------------------------------------------------

variable {σ : Type}

/-- The state after a record, if it is accepted. -/
def accepted? (accept : StreamRecord → σ → Except Error Unit × σ) (state : σ)
    (record : StreamRecord)
    : Option σ :=
  match accept record state with
  | (.ok _, next) => some next
  | (.error _, _) => none

/-- A record that is accepted leaves the state that comes next. -/
theorem accepted?_eq_some {accept : StreamRecord → σ → Except Error Unit × σ} {state next : σ}
    {record : StreamRecord} (accepted : accepted? accept state record = some next)
    : accept record state = (.ok (), next) := by
  rcases outcome : accept record state with ⟨error | done, left⟩
  · simp [accepted?, outcome] at accepted
  · simpa [accepted?, outcome] using accepted

theorem accepted?_eq_none {accept : StreamRecord → σ → Except Error Unit × σ} {state : σ}
    {record : StreamRecord} (refused : accepted? accept state record = none)
    : ∃ error left, accept record state = (.error error, left) := by
  rcases outcome : accept record state with ⟨error | done, left⟩
  · exact ⟨error, left, rfl⟩
  · simp [accepted?, outcome] at refused

/-- The state after a line, if it holds a record that is accepted. -/
def taken? (accept : StreamRecord → σ → Except Error Unit × σ) (state : σ) (line : List UInt8)
    : Option σ :=
  (lineRecord? line).bind (accepted? accept state)

/-- From the lines a consumer takes some, one after the other, and passes over the others. -/
inductive Takes (accept : StreamRecord → σ → Except Error Unit × σ)
    : List (List UInt8) → σ → List (List UInt8) → σ → Prop where
  | nil (state : σ) : Takes accept [] state [] state
  | skip {state last : σ} {line : List UInt8} {rest kept : List (List UInt8)}
      (refused : taken? accept state line = none) (later : Takes accept rest state kept last)
      : Takes accept (line :: rest) state kept last
  | take {state next last : σ} {line : List UInt8} {rest kept : List (List UInt8)}
      (accepted : taken? accept state line = some next) (later : Takes accept rest next kept last)
      : Takes accept (line :: rest) state (line :: kept) last

/-- A consumer that refuses a record is as it was before. -/
def KeepsOnRefusal (accept : StreamRecord → σ → Except Error Unit × σ) : Prop :=
  ∀ record state error, (accept record state).1 = .error error → (accept record state).2 = state

namespace Takes

variable {accept : StreamRecord → σ → Except Error Unit × σ} {state last : σ}
  {lines kept : List (List UInt8)}

/-- Some lines are taken, whatever the consumer does. -/
theorem exists_of_lines (accept : StreamRecord → σ → Except Error Unit × σ)
    (lines : List (List UInt8)) (state : σ)
    : ∃ kept last, Takes accept lines state kept last := by
  induction lines generalizing state with
  | nil => exact ⟨[], state, .nil state⟩
  | cons line rest ih =>
      cases outcome : taken? accept state line with
      | none =>
          obtain ⟨kept, last, later⟩ := ih state
          exact ⟨kept, last, .skip outcome later⟩
      | some next =>
          obtain ⟨kept, last, later⟩ := ih next
          exact ⟨line :: kept, last, .take outcome later⟩

/-- Which lines are taken is no choice. -/
theorem unique {others : List (List UInt8)} {end' : σ} (taken : Takes accept lines state kept last)
    (again : Takes accept lines state others end')
    : others = kept ∧ end' = last := by
  induction taken generalizing others end' with
  | nil => cases again; exact ⟨rfl, rfl⟩
  | skip refused _ ih =>
      cases again with
      | skip _ later => exact ih later
      | take accepted _ => cases refused.symm.trans accepted
  | take accepted _ ih =>
      cases again with
      | skip refused _ => cases refused.symm.trans accepted
      | take same later =>
          cases accepted.symm.trans same
          obtain ⟨rfl, rfl⟩ := ih later
          exact ⟨rfl, rfl⟩

/-- The lines are taken in their order. -/
theorem sublist (taken : Takes accept lines state kept last) : kept.Sublist lines := by
  induction taken with
  | nil => exact .slnil
  | skip _ _ ih => exact ih.cons _
  | take _ _ ih => exact ih.cons_cons _

/-- What is taken could have been all there was. -/
theorem alone (taken : Takes accept lines state kept last) : Takes accept kept state kept last := by
  induction taken with
  | nil state => exact .nil state
  | skip _ _ ih => exact ih
  | take accepted _ ih => exact .take accepted ih

/-- The records of the lines that are taken are accepted one after the other, each by what the
ones before it have left.
-/
theorem foldlM_records (taken : Takes accept lines state kept last)
    : ∃ records : List StreamRecord, kept.map lineRecord? = records.map some
      ∧ records.foldlM (accepted? accept) state = some last := by
  induction taken with
  | nil state => exact ⟨[], rfl, rfl⟩
  | skip _ _ ih => exact ih
  | take accepted _ ih =>
      obtain ⟨record, holds, accepted⟩ := Option.bind_eq_some_iff.mp accepted
      obtain ⟨records, hold, rest⟩ := ih
      exact ⟨record :: records, by simp [holds, hold], by simp [accepted, rest]⟩

end Takes

-----------------------------------------------------------------------------------------
-- The loop over the lines
-----------------------------------------------------------------------------------------

section Loop

variable {accept : StreamRecord → σ → Except Error Unit × σ}

/-- A line that is taken counts, and its record changes the state. -/
theorem feed_take {state next : σ} {line : List UInt8}
    (accepted : taken? accept state line = some next) (count : Nat) (rest : List (List UInt8))
    : feed accept count (line :: rest) state = feed accept (count + 1) rest next := by
  obtain ⟨record, holds, accepted⟩ := Option.bind_eq_some_iff.mp accepted
  obtain ⟨text, reads, record_eq⟩ := Option.bind_eq_some_iff.mp holds
  simp only [feed, reads, record_eq, accepted?_eq_some accepted]

/-- Any other text changes nothing. -/
theorem feed_skip (keeps : KeepsOnRefusal accept) {state : σ} {line : List UInt8}
    (text : isText line = true) (refused : taken? accept state line = none) (count : Nat)
    (rest : List (List UInt8))
    : feed accept count (line :: rest) state = feed accept count rest state := by
  obtain ⟨text, reads⟩ := Option.isSome_iff_exists.mp text
  simp only [feed, reads]
  cases holds : record? text with
  | none => rfl
  | some record =>
      have refused : accepted? accept state record = none := by
        simpa [taken?, lineRecord?, reads, holds] using refused
      obtain ⟨error, left, same⟩ := accepted?_eq_none refused
      -- The loop goes on with the state that the refusal left, which is the old one.
      have kept : left = state := by simpa [same] using keeps record state error (by rw [same])
      simp only [same, kept]

/-- A line that is no text ends the loop without a count. -/
theorem feed_end {line : List UInt8} (noText : isText line = false) (count : Nat)
    (rest : List (List UInt8)) (state : σ)
    : feed accept count (line :: rest) state = (none, state) := by
  have reads : lineText? line = none := by simpa [isText] using noText
  simp only [feed, reads]

/-- The loop takes what there is to take before the first line that is no text. -/
theorem feed_eq_of_takes (keeps : KeepsOnRefusal accept) {lines kept : List (List UInt8)}
    {state last : σ} (taken : Takes accept (lines.takeWhile isText) state kept last) (count : Nat)
    : feed accept count lines state =
        (if lines.all isText then some (count + kept.length) else none, last) := by
  induction lines generalizing state kept count with
  | nil => cases taken; simp [feed]
  | cons line rest ih =>
      cases text : isText line with
      | false =>
          simp only [List.takeWhile_cons, text] at taken
          cases taken
          simp [feed_end text, text]
      | true =>
          simp only [List.takeWhile_cons, text, if_true] at taken
          cases taken with
          | skip refused later => simp [feed_skip keeps text refused, ih later, text]
          | take accepted later =>
              simp [feed_take accepted, ih later, text, Nat.add_assoc, Nat.add_comm 1]

/-- The loop over lines and further ones. -/
theorem feed_append (count : Nat) (before after : List (List UInt8)) (state : σ)
    : feed accept count (before ++ after) state =
        match feed accept count before state with
        | (some count, state) => feed accept count after state
        | (none, state) => (none, state) := by
  induction before generalizing count state with
  | nil => rfl
  | cons line before ih =>
      simp only [List.cons_append, feed]
      cases lineText? line with
      | none => rfl
      | some text =>
          dsimp only
          cases record? text with
          | none => exact ih count state
          | some record =>
              dsimp only
              rcases accept record state with ⟨error | done, next⟩
              · exact ih count next
              · exact ih (count + 1) next

/-- What every record keeps the loop keeps, by induction over the lines. -/
theorem feed_keeps {P : σ → Prop} (kept : ∀ record state, P state → P (accept record state).2)
    (lines : List (List UInt8)) {state : σ} (before : P state) (count : Nat)
    : P (feed accept count lines state).2 := by
  induction lines generalizing count state with
  | nil => exact before
  | cons line rest ih =>
      rw [feed]
      cases lineText? line with
      | none => exact before
      | some text =>
          dsimp only
          cases record? text with
          | none => exact ih before count
          | some record =>
              have after := kept record state before
              dsimp only
              split
              · next same =>
                rw [same] at after
                exact ih after (count + 1)
              · next same =>
                rw [same] at after
                exact ih after count

/-- A text that is not taken where it stands may as well be left out. -/
theorem feed_erase (keeps : KeepsOnRefusal accept) {before after : List (List UInt8)}
    {line : List UInt8} {state : σ} (text : isText line = true) {count : Nat}
    (refused : taken? accept (feed accept count before state).2 line = none)
    : feed accept count (before ++ line :: after) state =
        feed accept count (before ++ after) state := by
  rw [feed_append, feed_append]
  split
  · next same => exact feed_skip keeps text (by simpa [same] using refused) ..
  · rfl

end Loop

end Replay

namespace Deployment

open Replay

/-- A deployment that does not accept a record is as it was before. -/
theorem keepsOnRefusal_accept (name : String) : KeepsOnRefusal (accept name) := by
  intro record deployment error refused
  unfold accept at refused ⊢
  split
  · rfl
  · next found =>
    split
    · next staged => simp [found, staged] at refused
    · rfl

/-- A replay stages the accepted lines of a file and nothing else. Of the lines before the first
that is no text, those and only those are kept that hold a record which is accepted after the ones
kept before it. They come in file order and the replay ends where staging exactly their records
ends, which is also what a replay of them alone does, and counts them if all lines are texts. Any
line that is a text but not accepted where it stands, as a blank one, can be left out of the file.
-/
theorem replay_skips_refused_lines (deployment : Deployment) (name : String)
    (content : List UInt8)
    : ∃ (kept : List (List UInt8)) (records : List StreamRecord) (last : Deployment),
        (∀ lines state, Takes (accept name) (readable content) deployment lines state
          ↔ lines = kept ∧ state = last)
        ∧ kept.Sublist (readable content)
        ∧ kept.map lineRecord? = records.map some
        ∧ records.foldlM (accepted? (accept name)) deployment = some last
        ∧ deployment.replay name content =
            (if (splitLines content).all isText then some kept.length else none, last)
        ∧ deployment.replay name (joinLines kept) = (some kept.length, last)
        ∧ (∀ line, IsBlank line → lineRecord? line = none)
        ∧ ∀ before line after, splitLines content = before ++ line :: after → isText line = true →
            taken? (accept name) (deployment.replay name (joinLines before)).2 line = none →
            deployment.replay name (joinLines (before ++ after)) =
              deployment.replay name content := by
  have keeps := keepsOnRefusal_accept name
  obtain ⟨kept, last, taken⟩ := Takes.exists_of_lines (accept name) (readable content) deployment
  obtain ⟨records, hold, staged⟩ := taken.foldlM_records
  have ofLines {lines : List (List UInt8)} (sub : lines.Sublist (splitLines content))
      : deployment.replay name (joinLines lines) = feed (accept name) 0 lines deployment := by
    rw [replay, Replay.run, splitLines_joinLines fun line member =>
      notMem_of_mem_splitLines (sub.subset member)]
  refine ⟨kept, records, last, ?_, taken.sublist, hold, staged, ?_, ?_,
    fun line blank => blank.lineRecord?_eq_none, ?_⟩
  · refine fun lines state => ⟨taken.unique, ?_⟩
    rintro ⟨rfl, rfl⟩
    exact taken
  · rw [replay, Replay.run, feed_eq_of_takes keeps taken 0, Nat.zero_add]
  · have sub := taken.sublist.trans (List.takeWhile_sublist _)
    have texts : ∀ line ∈ kept, isText line = true := fun line member =>
      List.mem_takeWhile_imp (taken.sublist.subset member)
    have alone : Takes (accept name) (kept.takeWhile isText) deployment kept last := by
      rw [List.takeWhile_eq_self_iff.mpr texts]
      exact taken.alone
    rw [ofLines sub, feed_eq_of_takes keeps alone 0, if_pos (List.all_eq_true.mpr texts),
      Nat.zero_add]
  · intro before line after cut text refused
    have sub : (before ++ after).Sublist (splitLines content) := by
      rw [cut]
      exact (List.sublist_cons_self line after).append_left before
    rw [ofLines sub, replay, Replay.run, cut]
    rw [ofLines ((List.sublist_append_left _ _).trans sub)] at refused
    exact (feed_erase keeps text refused).symm

end Deployment

end Telemetry.Collector
