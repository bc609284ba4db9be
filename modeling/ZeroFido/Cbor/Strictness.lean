import ZeroFido.Cbor.Skip

/-!
# How strict skipping is

The strict items of CBOR, as the comment in `zerofido_cbor.c` describes them: definite lengths,
heads of the least width and texts that are UTF-8. `zf_cbor_skip` has a head reader of its own that
does not look at the width of the form, and it passes over a text without looking at it.

`skip_strict_iff` says on which inputs what was skipped is a strict item all the same, and
`skip_accepts_lax_items` that there are others.
-/

set_option autoImplicit false
set_option relaxedAutoImplicit false

namespace ZeroFido.Cbor

/-- The bytes of `count` strict items in a row. `simples` are the simple values that may be written
in two bytes, on which the revisions of CBOR differ; heads of simple values and floats have the
width their kind gives them. -/
inductive StrictItems (simples : ℕ → Prop) : ℕ → Bytes → Prop where
  | nil : StrictItems simples 0 []
  | integer {major value count : ℕ} {more : Bytes}
      (hmajor : major = majorUint ∨ major = majorNegint) (hvalue : value < 2 ^ 64)
      (hmore : StrictItems simples count more) :
      StrictItems simples (count + 1) (headBytes major value ++ more)
  | bytes {data more : Bytes} {count : ℕ} (hlength : data.length < 2 ^ 64)
      (hmore : StrictItems simples count more) :
      StrictItems simples (count + 1) (stringBytes majorBytes data ++ more)
  | text {text more : Bytes} {count : ℕ} (hlength : text.length < 2 ^ 64)
      (hvalid : utf8IsValid text = true) (hmore : StrictItems simples count more) :
      StrictItems simples (count + 1) (stringBytes majorText text ++ more)
  | container {major raw count : ℕ} {body more : Bytes}
      (hmajor : major = majorArray ∨ major = majorMap) (hraw : raw < 2 ^ 64)
      (hbody : StrictItems simples (itemCount major raw) body)
      (hmore : StrictItems simples count more) :
      StrictItems simples (count + 1) (headBytes major raw ++ body ++ more)
  | simple {value count : ℕ} {head more : Bytes}
      (hform : HeadForm (fun _ ↦ 0) majorSimple value head)
      (hsimple : head.length = 2 → simples value) (hmore : StrictItems simples count more) :
      StrictItems simples (count + 1) (head ++ more)

/-- One strict item. -/
def StrictItem (simples : ℕ → Prop) (bytes : Bytes) : Prop := StrictItems simples 1 bytes

/-- The places where a walk over `count` items reads a head. -/
def itemVisits (visits : Bytes → List Bytes) (skipItem : Bytes → Option Bytes) :
    ℕ → Bytes → List Bytes
  | 0, _ => []
  | count + 1, cursor =>
    visits cursor ++
      match skipItem cursor with
      | none => []
      | some rest => itemVisits visits skipItem count rest

/-- The places where `skipInner` reads a head, each as the bytes from there on. -/
def skipVisits : ℕ → Bytes → List Bytes
  | 0, _ => []
  | levels + 1, cursor =>
    cursor ::
      match skipReadHead cursor with
      | none => []
      | some (major, raw, rest) =>
        if major = majorArray ∨ major = majorMap then
          itemVisits (skipVisits levels) (skipInner levels) (itemCount major raw) rest
        else []

/-- At a place where the skipper reads a head, neither of its two omissions matters: the strict
reader takes the head as well, and a text that follows is UTF-8. -/
structure StrictAt (simples : ℕ → Prop) (position : Bytes) : Prop where
  head : ∀ major raw rest, skipReadHead position = some (major, raw, rest) →
    major ≠ majorSimple → (readHead position).isSome
  text : ∀ raw rest, skipReadHead position = some (majorText, raw, rest) →
    utf8IsValid (rest.take raw) = true
  simple : ∀ raw rest, skipReadHead position = some (majorSimple, raw, rest) →
    position.length = rest.length + 2 → simples raw

section Visits

variable {simples : ℕ → Prop} {levels major raw : ℕ} {cursor rest : Bytes}

theorem skipVisits_leaf (h : skipReadHead cursor = some (major, raw, rest))
    (hmajor : ¬(major = majorArray ∨ major = majorMap)) :
    skipVisits (levels + 1) cursor = [cursor] := by
  simp only [skipVisits, h, if_neg hmajor]

theorem skipVisits_container (h : skipReadHead cursor = some (major, raw, rest))
    (hmajor : major = majorArray ∨ major = majorMap) :
    skipVisits (levels + 1) cursor = cursor ::
      itemVisits (skipVisits levels) (skipInner levels) (itemCount major raw) rest := by
  simp only [skipVisits, h, if_pos hmajor]

/-- A head of the strict form is strict, whatever else is. -/
theorem strictAt_of_head (h : readHead cursor = some (major, raw, rest))
    (htext : major = majorText → utf8IsValid (rest.take raw) = true)
    (hmajor : major ≠ majorSimple) :
    StrictAt simples cursor := by
  have hskip := skipReadHead_of_readHead h
  constructor
  · exact fun _ _ _ _ _ ↦ by rw [h]; rfl
  · intro raw' rest' h'
    obtain ⟨rfl, rfl, rfl⟩ : major = majorText ∧ raw = raw' ∧ rest = rest' := by
      simpa using hskip.symm.trans h'
    exact htext rfl
  · intro raw' rest' h' _
    obtain ⟨rfl, -, -⟩ : major = majorSimple ∧ raw = raw' ∧ rest = rest' := by
      simpa using hskip.symm.trans h'
    exact absurd rfl hmajor

theorem StrictItems.append {first second : Bytes} {m n : ℕ} (hfirst : StrictItems simples m first)
    (hsecond : StrictItems simples n second) : StrictItems simples (m + n) (first ++ second) := by
  induction hfirst with
  | nil => simpa using hsecond
  | integer hmajor hvalue _ ih =>
    rw [List.append_assoc, Nat.succ_add]
    exact .integer hmajor hvalue ih
  | bytes hlength _ ih =>
    rw [List.append_assoc, Nat.succ_add]
    exact .bytes hlength ih
  | text hlength hvalid _ ih =>
    rw [List.append_assoc, Nat.succ_add]
    exact .text hlength hvalid ih
  | container hmajor hraw hbody _ _ ih =>
    rw [List.append_assoc, Nat.succ_add]
    exact .container hmajor hraw hbody ih
  | simple hform hsimple _ ih =>
    rw [List.append_assoc, Nat.succ_add]
    exact .simple hform hsimple ih

/-- A head in a form that a reader accepts is read. -/
theorem readHeadWith_of_form {minimal : ℕ → ℕ} {value : ℕ} {head : Bytes} (hmajor : major < 8)
    (hform : HeadForm minimal major value head) (rest : Bytes) :
    readHeadWith minimal (head ++ rest) = some (major, value, rest) := by
  cases hform with
  | short hvalue =>
    obtain ⟨hhigh, hlow⟩ := lead_parts hmajor (show value < 32 by omega)
    simp only [List.singleton_append, readHeadWith, hhigh, hlow, hvalue, if_true]
  | wide info width hwidth hminimal hfits =>
    have hword := readWord_toBigEndian width value rest hfits
    simp only [headWidths, List.mem_cons, Prod.mk.injEq, List.not_mem_nil, or_false] at hwidth
    obtain ⟨rfl, rfl⟩ | ⟨rfl, rfl⟩ | ⟨rfl, rfl⟩ | ⟨rfl, rfl⟩ := hwidth
    all_goals
      simp [readHeadWith, hword, hminimal]
      omega

/-- The rest of a walk after an item that is not a container. -/
theorem visits_leaf {item more after left : Bytes} {count : ℕ}
    (hhead : skipReadHead (item ++ (more ++ after)) = some (major, raw, rest))
    (hleaf : ¬(major = majorArray ∨ major = majorMap))
    (hitem : skipInner (levels + 1) (item ++ (more ++ after)) = some (more ++ after))
    (hstrict : StrictAt simples (item ++ (more ++ after)))
    (hmore : skipItems (skipInner (levels + 1)) count (more ++ after) = some left →
      left = after ∧ ∀ position ∈ itemVisits (skipVisits (levels + 1)) (skipInner (levels + 1)) count
        (more ++ after), StrictAt simples position)
    (h : skipItems (skipInner (levels + 1)) (count + 1) (item ++ more ++ after) = some left) :
    left = after ∧ ∀ position ∈ itemVisits (skipVisits (levels + 1)) (skipInner (levels + 1))
      (count + 1) (item ++ more ++ after), StrictAt simples position := by
  rw [List.append_assoc] at h ⊢
  simp only [skipItems, hitem] at h
  obtain ⟨hleft, hvisits⟩ := hmore h
  refine ⟨hleft, fun position hposition ↦ ?_⟩
  simp only [itemVisits, hitem, skipVisits_leaf hhead hleaf, List.singleton_append,
    List.mem_cons] at hposition
  obtain rfl | hposition := hposition
  · exact hstrict
  · exact hvisits position hposition

/-- A walk over strict items ends behind them and finds a strict place at each head. -/
theorem StrictItems.visits {count : ℕ} {bytes : Bytes} (hitems : StrictItems simples count bytes) :
    ∀ {levels : ℕ} {after left : Bytes},
      skipItems (skipInner levels) count (bytes ++ after) = some left →
        left = after ∧ ∀ position ∈ itemVisits (skipVisits levels) (skipInner levels) count
          (bytes ++ after), StrictAt simples position := by
  induction hitems with
  | nil =>
    intro levels after left h
    exact ⟨(Option.some.inj h).symm, by simp [itemVisits]⟩
  | @integer major value count more hmajor hvalue _ ih =>
    intro levels after left h
    cases levels with
    | zero => cases h
    | succ levels =>
      have hhead := readHead_headBytes (more ++ after)
        (show major < 8 by obtain rfl | rfl := hmajor <;> decide) hvalue
      have hskip := skipReadHead_of_readHead hhead
      refine visits_leaf hskip ?_ (skipInner_integer hskip hmajor)
        (strictAt_of_head hhead ?_ ?_) ih h
      all_goals obtain rfl | rfl := hmajor
      all_goals simp [majorText, majorUint, majorNegint, majorSimple, majorArray, majorMap]
  | @bytes data more count hlength _ ih =>
    intro levels after left h
    cases levels with
    | zero => cases h
    | succ levels =>
      have hhead := readHead_headBytes (data ++ (more ++ after)) (show majorBytes < 8 by decide)
        hlength
      rw [← List.append_assoc] at hhead
      have hskip := skipReadHead_of_readHead hhead
      have hitem := @skipInner_string levels _ _ _ _ hskip (Or.inl rfl)
      rw [if_neg (by simp), List.drop_left] at hitem
      exact visits_leaf hskip (by decide) hitem
        (strictAt_of_head hhead (fun htext ↦ nomatch htext) (by decide)) ih h
  | @text text more count hlength hvalid _ ih =>
    intro levels after left h
    cases levels with
    | zero => cases h
    | succ levels =>
      have hhead := readHead_headBytes (text ++ (more ++ after)) (show majorText < 8 by decide)
        hlength
      rw [← List.append_assoc] at hhead
      have hskip := skipReadHead_of_readHead hhead
      have hitem := @skipInner_string levels _ _ _ _ hskip (Or.inr rfl)
      rw [if_neg (by simp), List.drop_left] at hitem
      refine visits_leaf hskip (by decide) hitem
        (strictAt_of_head hhead (fun _ ↦ ?_) (by decide)) ih h
      rwa [List.take_left]
  | @container major raw count body more hmajor hraw _ _ ihbody ihmore =>
    intro levels after left h
    cases levels with
    | zero => cases h
    | succ levels =>
      have hhead := readHead_headBytes (body ++ (more ++ after))
        (show major < 8 by obtain rfl | rfl := hmajor <;> decide) hraw
      have hskip := skipReadHead_of_readHead hhead
      have hitem := @skipInner_container levels _ _ _ _ hskip hmajor
      have hstrict : StrictAt simples (headBytes major raw ++ (body ++ (more ++ after))) := by
        refine strictAt_of_head hhead ?_ ?_
        all_goals obtain rfl | rfl := hmajor
        all_goals simp [majorText, majorArray, majorMap, majorSimple]
      rw [List.append_assoc, List.append_assoc] at h ⊢
      cases hbody : skipItems (skipInner levels) (itemCount major raw) (body ++ (more ++ after)) with
      | none =>
        rw [hbody] at hitem
        simp [skipItems, hitem] at h
      | some behind =>
        obtain ⟨rfl, hinner⟩ := ihbody hbody
        rw [hbody] at hitem
        simp only [skipItems, hitem] at h
        obtain ⟨hleft, houter⟩ := ihmore h
        refine ⟨hleft, fun position hposition ↦ ?_⟩
        simp only [itemVisits, hitem, skipVisits_container hskip hmajor, List.cons_append,
          List.mem_cons, List.mem_append] at hposition
        obtain rfl | hposition | hposition := hposition
        · exact hstrict
        · exact hinner position hposition
        · exact houter position hposition
  | @simple value count head more hform hsimple _ ih =>
    intro levels after left h
    cases levels with
    | zero => cases h
    | succ levels =>
      have hskip : skipReadHead (head ++ (more ++ after)) =
          some (majorSimple, value, more ++ after) :=
        readHeadWith_of_form (by decide) hform (more ++ after)
      have hitem := @skipInner_simple levels _ _ _ _ hskip rfl
      have hstrict : StrictAt simples (head ++ (more ++ after)) := by
        constructor
        · intro major' raw' rest' h' hother
          rw [hskip] at h'
          cases h'
          exact absurd rfl hother
        · intro raw' rest' h'
          rw [hskip] at h'
          cases h'
        · intro raw' rest' h' hlength
          rw [hskip] at h'
          cases h'
          exact hsimple (by simp only [List.length_append] at hlength; omega)
      by_cases hbreak : value ≠ 31
      · rw [if_pos hbreak] at hitem
        exact visits_leaf hskip (by decide) hitem hstrict ih h
      · rw [if_neg hbreak] at hitem
        rw [List.append_assoc] at h
        simp [skipItems, hitem] at h

end Visits

section Strictness

variable {simples : ℕ → Prop} {levels : ℕ} {cursor rest : Bytes}

/-- A list of items is strict when a walk that finds strict places only sees each item as strict. -/
theorem strictItems_of_visits {count : ℕ}
    (hitem : ∀ {cursor rest : Bytes}, skipInner levels cursor = some rest →
      (∀ position ∈ skipVisits levels cursor, StrictAt simples position) →
        ∃ consumed, cursor = consumed ++ rest ∧ StrictItems simples 1 consumed)
    (h : skipItems (skipInner levels) count cursor = some rest)
    (hvisits : ∀ position ∈ itemVisits (skipVisits levels) (skipInner levels) count cursor,
      StrictAt simples position) :
    ∃ consumed, cursor = consumed ++ rest ∧ StrictItems simples count consumed := by
  induction count generalizing cursor with
  | zero => exact ⟨[], Option.some.inj h, .nil⟩
  | succ count ih =>
    cases hfirst : skipInner levels cursor with
    | none => simp [skipItems, hfirst] at h
    | some behind =>
      simp only [skipItems, hfirst] at h
      simp only [itemVisits, hfirst, List.mem_append] at hvisits
      obtain ⟨item, rfl, hstrict⟩ := hitem hfirst fun position h ↦ hvisits position (Or.inl h)
      obtain ⟨items, rfl, hstricts⟩ := ih h fun position h ↦ hvisits position (Or.inr h)
      refine ⟨item ++ items, (List.append_assoc item items rest).symm, ?_⟩
      rw [Nat.add_comm]
      exact hstrict.append hstricts

/-- What the strict reader also takes has the form the encoder writes. -/
theorem StrictAt.canonical {major raw : ℕ} (h : StrictAt simples cursor)
    (hskip : skipReadHead cursor = some (major, raw, rest)) (hmajor : major ≠ majorSimple) :
    readHead cursor = some (major, raw, rest) := by
  obtain ⟨head, hhead⟩ := Option.isSome_iff_exists.mp (h.head major raw rest hskip hmajor)
  rw [hhead, ← hskip, skipReadHead_of_readHead hhead]

/-- A walk that finds strict places only has skipped a strict item. -/
theorem strictItem_of_visits (h : skipInner levels cursor = some rest)
    (hvisits : ∀ position ∈ skipVisits levels cursor, StrictAt simples position) :
    ∃ consumed, cursor = consumed ++ rest ∧ StrictItems simples 1 consumed := by
  induction levels generalizing cursor rest with
  | zero => cases h
  | succ levels ih =>
    have hstrict : StrictAt simples cursor := hvisits cursor (List.mem_cons_self ..)
    cases hhead : skipReadHead cursor with
    | none => simp [skipInner, hhead] at h
    | some head =>
      obtain ⟨major, raw, after⟩ := head
      by_cases hsimple : major = majorSimple
      · rw [skipInner_simple hhead hsimple] at h
        split_ifs at h
        obtain rfl := Option.some.inj h
        subst hsimple
        obtain ⟨-, bytes, hform, rfl⟩ := readHeadWith_form hhead
        refine ⟨bytes ++ [], by simp, .simple hform (fun hlength ↦ ?_) .nil⟩
        exact hstrict.simple raw after hhead (by rw [List.length_append]; omega)
      have hread := hstrict.canonical hhead hsimple
      obtain ⟨hcursor, -, hraw⟩ := readHead_canonical hread
      by_cases hinteger : major = majorUint ∨ major = majorNegint
      · rw [skipInner_integer hhead hinteger] at h
        obtain rfl := Option.some.inj h
        exact ⟨headBytes major raw ++ [], by simpa using hcursor, .integer hinteger hraw .nil⟩
      by_cases hstring : major = majorBytes ∨ major = majorText
      · rw [skipInner_string hhead hstring] at h
        split_ifs at h with hshort
        obtain rfl := Option.some.inj h
        have hlength : (after.take raw).length < 2 ^ 64 := by
          rw [List.length_take]
          omega
        refine ⟨stringBytes major (after.take raw) ++ [], ?_, ?_⟩
        · rw [List.append_nil]
          exact stringBytes_take hread hshort
        · obtain rfl | rfl := hstring
          · exact .bytes hlength .nil
          · exact .text hlength (hstrict.text raw after hhead) .nil
      by_cases hcontainer : major = majorArray ∨ major = majorMap
      · rw [skipInner_container hhead hcontainer] at h
        rw [skipVisits_container hhead hcontainer] at hvisits
        obtain ⟨body, rfl, hbody⟩ := strictItems_of_visits ih h fun position hposition ↦
          hvisits position (List.mem_cons_of_mem _ hposition)
        refine ⟨headBytes major raw ++ body ++ [], ?_, .container hcontainer hraw hbody .nil⟩
        rw [hcursor, List.append_nil, List.append_assoc]
      · simp only [not_or] at hinteger hstring hcontainer
        simp [skipInner, hhead, hinteger, hstring, hcontainer, hsimple] at h

/-- The skipper has found strict places only when what it has skipped is a strict item. -/
theorem StrictItem.visits {consumed : Bytes} (hitem : StrictItem simples consumed)
    (h : skip (consumed ++ rest) = some rest) :
    ∀ position ∈ skipVisits (skipDepthLimit + 1) (consumed ++ rest), StrictAt simples position := by
  have hwalk : skipItems (skipInner (skipDepthLimit + 1)) 1 (consumed ++ rest) = some rest := by
    rw [skip] at h
    simp only [skipItems, h]
  intro position hposition
  refine (StrictItems.visits hitem hwalk).2 position ?_
  rw [itemVisits, List.mem_append]
  exact Or.inl hposition

/-- What has been skipped is a strict item exactly when, at every place where the skipper has read a
head, the strict reader would have taken it and the text after it is UTF-8. -/
theorem skip_strict_iff (simples : ℕ → Prop) {cursor rest : Bytes}
    (h : skip cursor = some rest) :
    (∃ consumed, cursor = consumed ++ rest ∧ StrictItem simples consumed) ↔
      ∀ position ∈ skipVisits (skipDepthLimit + 1) cursor, StrictAt simples position := by
  constructor
  · rintro ⟨consumed, rfl, hitem⟩
    exact hitem.visits h
  · exact strictItem_of_visits h

/-- An array of a number and a text, both of the strict form. -/
theorem skip_strict_iff_array :
    (∃ consumed, ([0x82, 0x18, 0x20, 0x61, 0x41, 0x00] : Bytes) = consumed ++ [0x00] ∧
      StrictItem (32 ≤ ·) consumed) ↔
      ∀ position ∈ skipVisits (skipDepthLimit + 1) [0x82, 0x18, 0x20, 0x61, 0x41, 0x00],
        StrictAt (32 ≤ ·) position :=
  skip_strict_iff (32 ≤ ·) (by decide)

/-- The skipper takes the zero in two bytes and a text that is not UTF-8. -/
theorem skip_accepts_lax_items :
    (skip [0x18, 0x00] = some [] ∧ ∀ simples : ℕ → Prop,
      ¬∃ consumed, ([0x18, 0x00] : Bytes) = consumed ++ [] ∧ StrictItem simples consumed) ∧
      skip [0x61, 0xFF] = some [] ∧ ∀ simples : ℕ → Prop,
        ¬∃ consumed, ([0x61, 0xFF] : Bytes) = consumed ++ [] ∧ StrictItem simples consumed := by
  refine ⟨⟨by decide, fun simples ↦ ?_⟩, by decide, fun simples ↦ ?_⟩
  · rintro ⟨consumed, hconsumed, hitem⟩
    have hskip : skip (consumed ++ []) = some [] := by
      rw [← hconsumed]
      decide
    have hvisits := hitem.visits hskip
    rw [← hconsumed] at hvisits
    have hhead := (hvisits [0x18, 0x00] (by decide)).head 0 0 [] (by decide) (by decide)
    exact absurd hhead (by decide)
  · rintro ⟨consumed, hconsumed, hitem⟩
    have hskip : skip (consumed ++ []) = some [] := by
      rw [← hconsumed]
      decide
    have hvisits := hitem.visits hskip
    rw [← hconsumed] at hvisits
    have htext := (hvisits [0x61, 0xFF] (by decide)).text 1 [0xFF] (by decide)
    exact absurd htext (by decide)

end Strictness

end ZeroFido.Cbor
