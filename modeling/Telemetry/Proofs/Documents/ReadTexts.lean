import Telemetry.Proofs.Documents.ScannedTexts

/-! JSON texts and what they are read as. The text of a value is cut into the tokens that it was
written from, and these build the value again, unless it has more containers within each other than
the reader allows.
-/

namespace Telemetry

namespace Value

mutual

/-- Whether a value has a JSON text: its integers fit 64-bit words and its doubles are real numbers.
-/
def IsJson : Value → Prop
  | .int number => -2 ^ 63 ≤ number ∧ number < 2 ^ 64
  | .float number => number.isFinite = true
  | .list items => AllJson items
  | .object fields => FieldsJson fields
  | .null | .bool _ | .text _ => True

def AllJson : List Value → Prop
  | [] => True
  | value :: rest => IsJson value ∧ AllJson rest

def FieldsJson : List (String × Value) → Prop
  | [] => True
  | (_, value) :: rest => IsJson value ∧ FieldsJson rest

end

-----------------------------------------------------------------------------------------
-- The tokens of a value
-----------------------------------------------------------------------------------------

open Document (Token)

mutual

def tokens : Value → List Token
  | .list items => .beginList :: ([.comma].intercalate (tokensAll items) ++ [.endList])
  | .object fields => .beginObject :: ([.comma].intercalate (tokensFields fields) ++ [.endObject])
  | .text chars => [.text chars]
  | .float number => [.literal (rereadDouble number)]
  | .int number => [.literal (.int number)]
  | .bool truth => [.literal (.bool truth)]
  | .null => [.literal .null]

def tokensAll : List Value → List (List Token)
  | [] => []
  | value :: rest => tokens value :: tokensAll rest

def tokensFields : List (String × Value) → List (List Token)
  | [] => []
  | (name, value) :: rest => (.text name :: .colon :: tokens value) :: tokensFields rest

end

open Document.Scan

mutual

/-- The text of a value is scanned as the tokens of the value. -/
theorem yields_render {value : Value} (h : value.IsJson)
    : Yields value.render.toList value.tokens := by
  cases value with
  | null => exact yields_word (List.all_eq_true.mp rfl) rfl (by decide)
  | bool truth => cases truth <;> exact yields_word (List.all_eq_true.mp rfl) rfl (by decide)
  | int number =>
      rw [IsJson] at h
      refine yields_word (fun _ => Document.isWordChar_toString)
        (Document.readWord?_toString h.1 h.2) ?_
      exact Document.toString_ne_nil number
  | float number =>
      rw [IsJson] at h
      exact yields_word (fun _ => Document.isWordChar_decimalText h)
        (Document.readWord?_decimalText h) (Document.decimalText_ne_nil h)
  | text chars => exact yields_renderText chars
  | list items =>
      rw [IsJson] at h
      have parts := Yields.intercalate (yields_renderAll h)
      have whole := (parts.concat marks_endList).cons marks_beginList
      simpa [render, tokens] using whole
  | object fields =>
      rw [IsJson] at h
      have parts := Yields.intercalate (yields_renderFields h)
      have whole := (parts.concat marks_endObject).cons marks_beginObject
      simpa [render, tokens] using whole

theorem yields_renderAll {items : List Value} (h : AllJson items)
    : List.Forall₂ Yields ((renderAll items).map String.toList) (tokensAll items) := by
  cases items with
  | nil => exact .nil
  | cons value rest =>
      rw [AllJson] at h
      exact .cons (yields_render h.1) (yields_renderAll h.2)

theorem yields_renderFields {fields : List (String × Value)} (h : FieldsJson fields)
    : List.Forall₂ Yields ((renderFields fields).map String.toList) (tokensFields fields) := by
  cases fields with
  | nil => exact .nil
  | cons field rest =>
      obtain ⟨name, value⟩ := field
      rw [FieldsJson] at h
      refine .cons ?_ (yields_renderFields h.2)
      simpa using (yields_renderText name).append marks_colon (yields_render h.1)

end

end Value

-----------------------------------------------------------------------------------------
-- The value of some tokens
-----------------------------------------------------------------------------------------

namespace Document.Frame

open Value

variable {limit : Option Nat}

/-- Whether a limit, if there is one, allows for so many open containers. -/
def Allows (limit : Option Nat) (depth : Nat) : Prop :=
  ∀ most ∈ limit, depth ≤ most

instance (limit : Option Nat) (depth : Nat) : Decidable (Allows limit depth) := by
  unfold Allows
  infer_instance

theorem hasRoom_iff {stack : List Frame}
    : hasRoom limit stack = true ↔ Allows limit (stack.length + 1) := by
  cases limit <;> simp [hasRoom, Allows]

theorem hasRoom_of_allows {stack : List Frame} {depth : Nat}
    (h : Allows limit (stack.length + (depth + 1)))
    : hasRoom limit stack = true := by
  refine hasRoom_iff.mpr fun most member => ?_
  have := h most member
  omega

theorem allows_add_max {base one other : Nat}
    : Allows limit (base + max one other)
      ↔ Allows limit (base + one) ∧ Allows limit (base + other) := by
  unfold Allows
  constructor
  · exact fun h => ⟨fun most member => by have := h most member; omega,
      fun most member => by have := h most member; omega⟩
  · exact fun h most member => by have := h.1 most member; have := h.2 most member; omega

/-- No value starts with the end of a list, so that its tokens build it also where the list might
end.
-/
theorem foldlM_itemOrEnd (value : Value) (more : List Token) (stack : List Frame)
    : (value.tokens ++ more).foldlM (step limit) (stack, .itemOrEnd)
      = (value.tokens ++ more).foldlM (step limit) (stack, .value) := by
  cases value <;> rfl

mutual

/-- The tokens of a value build it where a value is expected, as long as the containers in it are
not too many within each other.
-/
theorem foldlM_tokens (value : Value) {stack : List Frame} (room : Allows limit stack.length)
    : value.tokens.foldlM (step limit) (stack, .value)
      = if Allows limit (stack.length + value.nesting) then some (deliver stack value.reread)
        else none := by
  cases value with
  | list items =>
      have opened : step limit (stack, .value) .beginList
          = if hasRoom limit stack then some (.list [] :: stack, .itemOrEnd) else none := rfl
      rw [tokens, List.foldlM_cons, opened, Value.reread, nesting]
      by_cases enough : hasRoom limit stack = true
      case neg =>
        rw [if_neg enough, if_neg fun all => enough (hasRoom_of_allows all)]
        rfl
      rw [if_pos enough, Option.bind_eq_bind, Option.bind_some]
      have deeper := hasRoom_iff.mp enough
      cases items with
      | nil => simp [tokensAll, nestingAll, rereadAll, step, deeper]
      | cons value rest =>
          have built := foldlM_tokensAll (List.cons_ne_nil value rest) deeper []
          obtain ⟨more, whole⟩ : ∃ more,
              [Token.comma].intercalate (tokensAll (value :: rest)) = value.tokens ++ more := by
            cases rest <;> simp [tokensAll]
          rw [whole, List.append_assoc, foldlM_itemOrEnd, ← List.append_assoc, ← whole,
            List.foldlM_append, built, Nat.add_right_comm, Nat.add_assoc]
          split <;> simp [step]
  | object fields =>
      have opened : step limit (stack, .value) .beginObject
          = if hasRoom limit stack then some (stack, .nameOrEnd []) else none := rfl
      rw [tokens, List.foldlM_cons, opened, Value.reread, nesting]
      by_cases enough : hasRoom limit stack = true
      case neg =>
        rw [if_neg enough, if_neg fun all => enough (hasRoom_of_allows all)]
        rfl
      rw [if_pos enough, Option.bind_eq_bind, Option.bind_some]
      have deeper := hasRoom_iff.mp enough
      cases fields with
      | nil => simp [tokensFields, nestingFields, rereadFields, step, deeper]
      | cons field rest =>
          obtain ⟨last, built⟩ := foldlM_tokensFields (List.cons_ne_nil field rest) deeper []
          obtain ⟨more, whole⟩ : ∃ more,
              [Token.comma].intercalate (tokensFields (field :: rest)) = .text field.1 :: more := by
            cases rest <;> simp [tokensFields]
          have started : ([Token.comma].intercalate (tokensFields (field :: rest))
                ++ [Token.endObject]).foldlM (step limit) (stack, .nameOrEnd [])
              = ([Token.comma].intercalate (tokensFields (field :: rest))
                ++ [Token.endObject]).foldlM (step limit) (stack, .name []) := by
            rw [whole]
            rfl
          rw [started, List.foldlM_append, built, Nat.add_right_comm, Nat.add_assoc]
          split <;> simp [step]
  | null | bool | int | float | text =>
      simp [tokens, step, start, nesting, room, Value.reread]

/-- The tokens of items build a list on the items before them. -/
theorem foldlM_tokensAll {items : List Value} (nonempty : items ≠ []) {stack : List Frame}
    (room : Allows limit (stack.length + 1)) (before : List Value)
    : ([Token.comma].intercalate (tokensAll items)).foldlM (step limit)
        (.list before :: stack, .value)
      = if Allows limit (stack.length + 1 + nestingAll items) then
          some (.list ((rereadAll items).reverse ++ before) :: stack, .separator)
        else none := by
  cases items with
  | nil => exact absurd rfl nonempty
  | cons value rest =>
      have first := @foldlM_tokens value (.list before :: stack) room
      rw [List.length_cons] at first
      cases rest with
      | nil => simpa [tokensAll, nestingAll, rereadAll, deliver] using first
      | cons second others =>
          have later := foldlM_tokensAll (List.cons_ne_nil second others) room
            (value.reread :: before)
          have parts : [Token.comma].intercalate (tokensAll (value :: second :: others))
              = value.tokens
                ++ .comma :: [Token.comma].intercalate (tokensAll (second :: others)) := by
            simp [tokensAll]
          rw [parts, List.foldlM_append, first, nestingAll, rereadAll]
          by_cases one : Allows limit (stack.length + 1 + value.nesting)
          · simp [one, allows_add_max, deliver, step, later]
          · simp [one, allows_add_max]

/-- The tokens of fields build an object on the fields before them. -/
theorem foldlM_tokensFields {fields : List (String × Value)} (nonempty : fields ≠ [])
    {stack : List Frame} (room : Allows limit (stack.length + 1)) (before : List (String × Value))
    : ∃ last, ([Token.comma].intercalate (tokensFields fields)).foldlM (step limit)
        (stack, .name before)
      = if Allows limit (stack.length + 1 + nestingFields fields) then
          some (.object ((rereadFields fields).reverse ++ before) last :: stack, .separator)
        else none := by
  cases fields with
  | nil => exact absurd rfl nonempty
  | cons field rest =>
      obtain ⟨name, value⟩ := field
      have first := @foldlM_tokens value (.object before name :: stack) room
      rw [List.length_cons] at first
      cases rest with
      | nil =>
          refine ⟨name, ?_⟩
          simpa [tokensFields, nestingFields, rereadFields, deliver, step] using first
      | cons second others =>
          obtain ⟨last, later⟩ := foldlM_tokensFields (List.cons_ne_nil second others) room
            ((name, value.reread) :: before)
          have parts : [Token.comma].intercalate (tokensFields ((name, value) :: second :: others))
              = .text name :: .colon :: (value.tokens
                ++ .comma :: [Token.comma].intercalate (tokensFields (second :: others))) := by
            simp [tokensFields]
          have named (more : List Token)
              : (.text name :: .colon :: more).foldlM (step limit) (stack, .name before)
                = more.foldlM (step limit) (.object before name :: stack, .value) := rfl
          refine ⟨last, ?_⟩
          rw [parts, named, List.foldlM_append, first, nestingFields, rereadFields]
          by_cases one : Allows limit (stack.length + 1 + value.nesting)
          · simp [one, allows_add_max, deliver, step, later]
          · simp [one, allows_add_max]

end

end Document.Frame

-----------------------------------------------------------------------------------------
-- Reading what was written
-----------------------------------------------------------------------------------------

/-- The text of a value is read as what the value is read as, unless it has more containers within
each other than a limit allows.
-/
theorem Document.parse?_render {value : Value} (h : value.IsJson) (limit : Option Nat)
    : Document.parse? value.render limit
      = if Frame.Allows limit value.nesting then some value.reread else none := by
  have built := @Frame.foldlM_tokens limit value [] fun _ _ => Nat.zero_le _
  rw [List.length_nil, Nat.zero_add] at built
  rw [parse?, (Value.yields_render h).tokens?, Option.bind_eq_bind, Option.bind_some, built]
  split <;> rfl

end Telemetry
