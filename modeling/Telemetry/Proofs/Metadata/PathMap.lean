import Telemetry.Proofs.Metadata.ChangeNotices

/-! Calls of the metadata store and what they would do to one map from path to value and deadline:
what they answer, what they change, and what each path holds after them. Only a path with a key can
hold a value, and no other text is split like the text of such a path.
-/

namespace Telemetry.Metadata

-----------------------------------------------------------------------------------------
-- Calls and what they do to one map
-----------------------------------------------------------------------------------------

/-- A call of the metadata store, with its reading of the clock if it takes one. -/
inductive Call where
  | get (text : String)
  | put (text : String) (value : Value)
  | putFor (now : Time) (lifetime : Duration) (text : String) (value : Value)
  | delete (text : String)
  | expire (now : Time)

inductive Answer where
  | found (result : Except MetadataError (Option Value))
  | done (result : Except MetadataError Unit)
  | expired (result : Except MetadataError Nat)

namespace Store

/-- What a change answers and leaves. A change that fails leaves the store as it was. -/
def adopt (store : Store) : Except MetadataError Store → Answer × Store
  | .ok changed => (.done (.ok ()), changed)
  | .error error => (.done (.error error), store)

def call (store : Store) : Call → Answer × Store
  | .get text => (.found (store.get text), store)
  | .put text value => store.adopt (store.put text value)
  | .putFor now lifetime text value => store.adopt (store.putFor now lifetime text value)
  | .delete text => store.adopt (store.delete text)
  | .expire now =>
      match store.expire now with
      | .ok (count, changed) => (.expired (.ok count), changed)
      | .error error => (.expired (.error error), store)

def afterCalls (store : Store) (calls : List Call) : Store :=
  calls.foldl (fun store call => (store.call call).2) store

def answers (store : Store) : List Call → List Answer
  | [] => []
  | call :: rest => (store.call call).1 :: answers (store.call call).2 rest

end Store

/-- What a path holds: a value, and the time at which it expires if there is one. -/
structure Entry where
  value : Value
  deadline : Option Time := none

def Entry.isDue (now : Time) (entry : Entry) : Bool :=
  entry.deadline.any (· ≤ now)

/-- Why a text is no path that can hold a value: it has fewer than three segments, or no key after
the third, or an empty one. A text has one segment more than it has slashes.
-/
def refusal? (text : String) : Option MetadataError :=
  let slashes := text.toList.count '/'
  if slashes < 2 then some (.tooFewSegments text)
  else if slashes = 2 ∨ slashes = 3 ∧ text.toList.getLast? = some '/' then some (.noKey text)
  else none

/-- Entries by the texts of their paths. -/
abbrev PathMap := KeyMap Entry

namespace PathMap

def due (map : PathMap) (now : Time) : PathMap :=
  map.filter fun _ entry => entry.isDue now

/-- What a change of a path answers and leaves: only a path that can hold a value is changed. -/
def adopt (map : PathMap) (text : String) (changed : PathMap) : Answer × PathMap :=
  match refusal? text with
  | none => (.done (.ok ()), changed)
  | some error => (.done (.error error), map)

def call (map : PathMap) : Call → Answer × PathMap
  | .get text =>
      if text.toList.count '/' < 2 then (.found (.error (.tooFewSegments text)), map)
      else (.found (.ok ((map.get? text).map (·.value))), map)
  | .put text value => map.adopt text (map.insert text ⟨value, none⟩)
  | .putFor now lifetime text value =>
      map.adopt text (map.insert text ⟨value, some (now + lifetime)⟩)
  | .delete text => map.adopt text (map.erase text)
  | .expire now =>
      (.expired (.ok (map.due now).size), map.filter fun _ entry => !entry.isDue now)

/-- The changes that a call makes, in order. -/
def changes (map : PathMap) : Call → List Event
  | .get _ => []
  | .put text value | .putFor _ _ text value =>
      if (refusal? text).isNone then [.put text value.json] else []
  | .delete text => if map.contains text then [.deleted text] else []
  | .expire now => (map.due now).keys.map .deleted

def afterCalls (map : PathMap) (calls : List Call) : PathMap :=
  calls.foldl (fun map call => (map.call call).2) map

def answers (map : PathMap) : List Call → List Answer
  | [] => []
  | call :: rest => (map.call call).1 :: answers (map.call call).2 rest

end PathMap

/-- What a path holds after a call, by what it held before. A put that succeeds replaces it whole,
a deletion and the coming of its deadline take it away, and nothing else touches it.
-/
def Call.effect (text : String) (held : Option Entry) : Call → Option Entry
  | .get _ => held
  | .put path value => if path = text ∧ refusal? path = none then some ⟨value, none⟩ else held
  | .putFor now lifetime path value =>
      if path = text ∧ refusal? path = none then some ⟨value, some (now + lifetime)⟩ else held
  | .delete path => if path = text ∧ refusal? path = none then none else held
  | .expire now => held.filter fun entry => !entry.isDue now

def Call.target? : Call → Option String
  | .put text _ | .putFor _ _ text _ | .delete text => some text
  | .get _ | .expire _ => none

/-- A call changes the map at every path as its effect there says. -/
theorem PathMap.get?_call (map : PathMap) (call : Call) (text : String)
    : (map.call call).2.get? text = call.effect text (map.get? text) := by
  have adopted {path : String} {changed : PathMap} {entry : Option Entry}
      (h : changed.get? text = if text = path then entry else map.get? text)
      : (map.adopt path changed).2.get? text
        = if path = text ∧ refusal? path = none then entry else map.get? text := by
    unfold adopt
    cases refusal? path with
    | some error => simp
    | none => simp [h, eq_comm]
  cases call with
  | get path =>
      simp only [PathMap.call]
      split <;> rfl
  | put path value => exact adopted (KeyMap.get?_insert map path text _)
  | putFor now lifetime path value => exact adopted (KeyMap.get?_insert map path text _)
  | delete path => exact adopted (KeyMap.get?_erase map path text)
  | expire now => exact KeyMap.get?_filter _ _ _

/-- What a path holds after some calls is what they leave there one after the other. -/
theorem PathMap.get?_afterCalls (map : PathMap) (calls : List Call) (text : String)
    : (map.afterCalls calls).get? text = calls.foldl (Call.effect text) (map.get? text) := by
  induction calls generalizing map with
  | nil => rfl
  | cons call rest ih =>
      rw [List.foldl_cons, ← map.get?_call call text]
      exact ih _

-----------------------------------------------------------------------------------------
-- Paths that can hold a value
-----------------------------------------------------------------------------------------

namespace Path

/-- A text with no slash to be split at is its own group. -/
theorem splitAtSlash_of_count_le {count : Nat} {chars : List Char} (h : chars.count '/' ≤ count)
    : splitAtSlash count chars = (chars, none) := by
  induction chars generalizing count with
  | nil => rfl
  | cons c rest ih =>
      by_cases slash : c = '/'
      · subst slash
        cases count with
        | zero => simp at h
        | succ left => simp [splitAtSlash, ih (by simpa using h)]
      · simp [splitAtSlash, slash, ih (by simpa [slash] using h)]

/-- A text can be read as a path that holds a value unless it is refused. -/
theorem parseKeyed_of_refusal? {text : String} {error : MetadataError}
    (h : refusal? text = some error)
    : parseKeyed text = .error error := by
  dsimp only [refusal?] at h
  split at h
  next few =>
    cases h
    simp only [parseKeyed, parse, if_pos few]
    rfl
  next enough =>
    split at h
    next bare =>
      cases h
      have keyless : ∃ group, parse text = .ok ⟨group, ""⟩ := by
        rcases bare with two | ⟨three, last⟩
        · refine ⟨text, ?_⟩
          rw [parse, if_neg enough, splitAtSlash_of_count_le (by omega)]
          simp
        · obtain ⟨before, whole⟩ := List.getLast?_eq_some_iff.mp last
          refine ⟨String.ofList before, parse_eq_of_toList whole ?_⟩
          rw [whole] at three
          simpa using three
      obtain ⟨group, parsed⟩ := keyless
      simp only [parseKeyed, parsed]
      rfl
    next => cases h

theorem exists_parseKeyed {text : String} (h : refusal? text = none)
    : ∃ path, parseKeyed text = .ok path := by
  dsimp only [refusal?] at h
  split at h
  · cases h
  next enough =>
    split at h
    · cases h
    next keyed =>
      obtain ⟨notTwo, notBare⟩ := not_or.mp keyed
      obtain ⟨before, after, whole, counted⟩ :=
        exists_split_of_count (by omega : 2 < text.toList.count '/')
      refine ⟨⟨String.ofList before, String.ofList after⟩, ?_⟩
      have key : String.ofList after ≠ "" := by
        intro empty
        have none : after = [] := by simpa using congrArg String.toList empty
        subst none
        refine notBare ⟨?_, ?_⟩
        · rw [whole, List.count_append, counted]
          rfl
        · rw [whole, List.getLast?_concat]
      simp only [parseKeyed, parse_eq_of_toList whole counted, bind, Except.bind, if_neg key]
      rfl

/-- No other text is split as the text of a path that holds a value. -/
theorem eq_of_parseKeyed_of_parse {text other : String} {path : Path}
    (ht : parseKeyed text = .ok path) (ho : parse other = .ok path)
    : text = other := by
  obtain ⟨parsed, whole⟩ := parseKeyed_eq_ok ht
  have key : path.key ≠ "" := by
    intro empty
    simp only [parseKeyed, parsed, bind, Except.bind, if_pos empty] at ht
    cases ht
  have wholeToo := (parse_eq_ok ho).resolve_left fun bare => key bare.2
  exact String.toList_inj.mp (whole.trans wholeToo.symm)

end Path

end Telemetry.Metadata
