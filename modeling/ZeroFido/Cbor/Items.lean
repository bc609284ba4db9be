import ZeroFido.Cbor.Strictness

/-!
# Readers of whole items

The items that the readers take, with heads of any width (`Items`). No item is the beginning of
another one (`Items.cancel`).

A reader is exact when it takes so many whole items, and would take the same ones whatever came
after them (`Exact`). Exact readers compose (`Exact.bind`, `exact_container`), and a loop over them
is exact (`exact_skipItems`).
-/

set_option autoImplicit false
set_option relaxedAutoImplicit false

namespace ZeroFido.Cbor

/-- The kinds of item that have no items in them. -/
def IsPlain (major : ℕ) : Prop :=
  major = majorUint ∨ major = majorNegint ∨ major = majorBytes ∨ major = majorText ∨
    major = majorSimple

/-- The kinds of item that have. -/
def IsContainer (major : ℕ) : Prop := major = majorArray ∨ major = majorMap

/-- How many bytes follow the head of an item without items in it. -/
def dataLength (major raw : ℕ) : ℕ := if major = majorBytes ∨ major = majorText then raw else 0

/-- The bytes of `count` items of definite length in a row. -/
inductive Items : ℕ → Bytes → Prop where
  | nil : Items 0 []
  | plain {major raw count : ℕ} {head data more : Bytes} (hmajor : IsPlain major)
      (hform : HeadForm (fun _ ↦ 0) major raw head) (hlength : data.length = dataLength major raw)
      (hmore : Items count more) : Items (count + 1) (head ++ (data ++ more))
  | container {major raw count : ℕ} {head body more : Bytes} (hmajor : IsContainer major)
      (hform : HeadForm (fun _ ↦ 0) major raw head) (hbody : Items (itemCount major raw) body)
      (hmore : Items count more) : Items (count + 1) (head ++ (body ++ more))

section Grammar

variable {first second rest rest' : Bytes} {major m n : ℕ}

theorem IsPlain.lt (h : IsPlain major) : major < 8 := by
  obtain rfl | rfl | rfl | rfl | rfl := h <;> decide

theorem IsContainer.lt (h : IsContainer major) : major < 8 := by
  obtain rfl | rfl := h <;> decide

theorem IsPlain.not_container (h : IsPlain major) : ¬IsContainer major := by
  obtain rfl | rfl | rfl | rfl | rfl := h <;> unfold IsContainer <;> decide

theorem Items.append (hfirst : Items m first) (hsecond : Items n second) :
    Items (m + n) (first ++ second) := by
  induction hfirst with
  | nil => simpa using hsecond
  | plain hmajor hform hlength _ ih =>
    rw [List.append_assoc, List.append_assoc, Nat.succ_add]
    exact .plain hmajor hform hlength ih
  | container hmajor hform hbody _ _ ih =>
    rw [List.append_assoc, List.append_assoc, Nat.succ_add]
    exact .container hmajor hform hbody ih

/-- Two heads at the same place are the same. -/
theorem HeadForm.cancel {major' raw raw' : ℕ} {head head' : Bytes} (hmajor : major < 8)
    (hmajor' : major' < 8) (h : HeadForm (fun _ ↦ 0) major raw head)
    (h' : HeadForm (fun _ ↦ 0) major' raw' head') (hsame : head ++ rest = head' ++ rest') :
    major = major' ∧ raw = raw' ∧ head = head' ∧ rest = rest' := by
  have hread := readHeadWith_of_form hmajor h rest
  rw [hsame, readHeadWith_of_form hmajor' h' rest'] at hread
  obtain ⟨rfl, rfl, rfl⟩ : major' = major ∧ raw' = raw ∧ rest' = rest := by
    simpa using hread
  exact ⟨rfl, rfl, List.append_cancel_right hsame, rfl⟩

/-- Items are not the beginning of as many others. -/
theorem Items.cancel (hfirst : Items n first) (hsecond : Items n second)
    (hsame : first ++ rest = second ++ rest') : first = second ∧ rest = rest' := by
  induction hfirst generalizing second rest rest' with
  | nil =>
    cases hsecond
    exact ⟨rfl, hsame⟩
  | plain hmajor hform hlength _ ih =>
    cases hsecond with
    | plain hmajor' hform' hlength' hmore' =>
      simp only [List.append_assoc] at hsame
      obtain ⟨rfl, rfl, rfl, hdata⟩ := hform.cancel hmajor.lt hmajor'.lt hform' hsame
      obtain ⟨rfl, hafter⟩ := List.append_inj hdata (hlength.trans hlength'.symm)
      obtain ⟨rfl, rfl⟩ := ih hmore' hafter
      exact ⟨rfl, rfl⟩
    | container hmajor' hform' hbody' hmore' =>
      simp only [List.append_assoc] at hsame
      obtain ⟨rfl, -⟩ := hform.cancel hmajor.lt hmajor'.lt hform' hsame
      exact absurd hmajor' hmajor.not_container
  | container hmajor hform hbody _ ihbody ih =>
    cases hsecond with
    | plain hmajor' hform' hlength' hmore' =>
      simp only [List.append_assoc] at hsame
      obtain ⟨rfl, -⟩ := hform.cancel hmajor.lt hmajor'.lt hform' hsame
      exact absurd hmajor hmajor'.not_container
    | container hmajor' hform' hbody' hmore' =>
      simp only [List.append_assoc] at hsame
      obtain ⟨rfl, rfl, rfl, hitems⟩ := hform.cancel hmajor.lt hmajor'.lt hform' hsame
      obtain ⟨rfl, hafter⟩ := ihbody hbody' hitems
      obtain ⟨rfl, rfl⟩ := ih hmore' hafter
      exact ⟨rfl, rfl⟩

/-- Items in a row are one and then the others. -/
theorem Items.uncons (h : Items (n + 1) first) :
    ∃ item more, Items 1 item ∧ Items n more ∧ first = item ++ more := by
  cases h with
  | @plain _ _ _ head data more hmajor hform hlength hmore =>
    refine ⟨head ++ (data ++ []), more, .plain hmajor hform hlength .nil, hmore, ?_⟩
    simp
  | @container _ _ _ head body more hmajor hform hbody hmore =>
    refine ⟨head ++ (body ++ []), more, .container hmajor hform hbody .nil, hmore, ?_⟩
    simp

theorem Items.ne_nil (h : Items (n + 1) first) : first ≠ [] := by
  cases h with
  | plain hmajor hform _ _ => cases hform <;> simp
  | container hmajor hform _ _ => cases hform <;> simp

/-- Items in a row are so many of them and then the others. -/
theorem Items.split (h : Items (m + n) first) :
    ∃ front back, Items m front ∧ Items n back ∧ first = front ++ back := by
  induction m generalizing first with
  | zero => exact ⟨[], first, .nil, by simpa using h, rfl⟩
  | succ m ih =>
    rw [Nat.succ_add] at h
    obtain ⟨item, more, hitem, hmore, rfl⟩ := h.uncons
    obtain ⟨front, back, hfront, hback, rfl⟩ := ih hmore
    refine ⟨item ++ front, back, ?_, hback, (List.append_assoc _ _ _).symm⟩
    rw [Nat.add_comm]
    exact hitem.append hfront

/-- What follows known items is the rest of the items. -/
theorem Items.strip (h : Items (m + n) (first ++ rest)) (hfirst : Items m first) :
    Items n rest := by
  obtain ⟨front, back, hfront, hback, hsame⟩ := h.split
  obtain ⟨-, rfl⟩ := hfirst.cancel hfront hsame
  exact hback

/-- Bytes are so many items and no other number of them. -/
theorem Items.count_unique (h : Items m first) (h' : Items n first) : m = n := by
  have hle {m n : ℕ} (h : Items m first) (h' : Items n first) (hmn : m ≤ n) : m = n := by
    obtain ⟨more, rfl⟩ := Nat.exists_eq_add_of_le hmn
    rw [← List.append_nil first] at h'
    have hmore := h'.strip h
    cases more with
    | zero => rfl
    | succ more => exact absurd rfl hmore.ne_nil
  rcases Nat.le_total m n with hmn | hnm
  · exact hle h h' hmn
  · exact (hle h' h hnm).symm

/-- The head that the encoder writes is of the accepted forms. -/
theorem headForm_headBytes {value : ℕ} (hmajor : major < 8) (hvalue : value < 2 ^ 64) :
    HeadForm (fun _ ↦ 0) major value (headBytes major value) := by
  have hread := readHead_headBytes [] hmajor hvalue
  obtain ⟨-, head, hform, hsame⟩ := readHeadWith_form hread
  rw [List.append_nil, List.append_nil] at hsame
  rw [hsame]
  cases hform with
  | short hvalue => exact .short hvalue
  | wide info width hwidth _ hfits => exact .wide info width hwidth (Nat.zero_le _) hfits

/-- The item that starts with a known head. -/
theorem Items.head_inv {raw : ℕ} (h : Items (n + 1) (headBytes major raw ++ rest))
    (hmajor : major < 8) (hraw : raw < 2 ^ 64) :
    ∃ body more, Items n more ∧ rest = body ++ more ∧
      (IsContainer major → Items (itemCount major raw) body) ∧
      (IsPlain major → body.length = dataLength major raw) := by
  have hhead := headForm_headBytes hmajor hraw
  generalize hfirst : headBytes major raw ++ rest = first at h
  cases h with
  | @plain major' raw' _ head data more hplain hform hlength hmore =>
    obtain ⟨rfl, rfl, rfl, rfl⟩ := hhead.cancel hmajor hplain.lt hform hfirst
    exact ⟨data, more, hmore, rfl, fun hcontainer ↦ absurd hcontainer hplain.not_container,
      fun _ ↦ hlength⟩
  | @container major' raw' _ head body more hcontainer hform hbody hmore =>
    obtain ⟨rfl, rfl, rfl, rfl⟩ := hhead.cancel hmajor hcontainer.lt hform hfirst
    exact ⟨body, more, hmore, rfl, fun _ ↦ hbody,
      fun hplain ↦ absurd hcontainer hplain.not_container⟩

/-- Behind the head of a map are its items, and then those behind the map. -/
theorem Items.open_map {pairs : ℕ} (h : Items (n + 1) (headBytes majorMap pairs ++ rest))
    (hpairs : pairs < 2 ^ 64) : Items (2 * pairs + n) rest := by
  obtain ⟨body, more, hmore, rfl, hbody, -⟩ := h.head_inv (by decide) hpairs
  have hinner : Items (2 * pairs) body := hbody (Or.inr rfl)
  exact hinner.append hmore

end Grammar

section Readers

variable {Value Next : Type} {m n : ℕ}

/-- The reader takes `count` whole items, and the same ones whatever comes after them. -/
def Exact (count : ℕ) (read : Bytes → Option (Value × Bytes)) : Prop :=
  ∀ cursor value rest, read cursor = some (value, rest) →
    ∃ consumed, Items count consumed ∧ cursor = consumed ++ rest ∧
      ∀ rest', read (consumed ++ rest') = some (value, rest')

theorem exact_some (value : Value) : Exact 0 fun cursor ↦ some (value, cursor) := by
  intro cursor value' rest h
  obtain ⟨rfl, rfl⟩ := Prod.mk.inj (Option.some.inj h)
  exact ⟨[], .nil, rfl, fun _ ↦ rfl⟩

theorem exact_none : Exact n fun _ ↦ (none : Option (Value × Bytes)) :=
  fun _ _ _ h ↦ absurd h (by simp)

/-- One reader after the other. -/
theorem Exact.bind {read : Bytes → Option (Value × Bytes)}
    {next : Value × Bytes → Option (Next × Bytes)} (h : Exact m read)
    (hnext : ∀ value, Exact n fun cursor ↦ next (value, cursor)) :
    Exact (m + n) fun cursor ↦ (read cursor).bind next := by
  intro cursor value rest hread
  obtain ⟨⟨middle, after⟩, hfirst, hsecond⟩ := Option.bind_eq_some_iff.mp hread
  obtain ⟨consumed, hitems, rfl, hsame⟩ := h cursor middle after hfirst
  obtain ⟨consumed', hitems', rfl, hsame'⟩ := hnext middle after value rest hsecond
  refine ⟨consumed ++ consumed', hitems.append hitems', (List.append_assoc _ _ _).symm,
    fun rest' ↦ ?_⟩
  dsimp only
  rw [List.append_assoc, hsame, Option.bind_some]
  exact hsame' rest'

theorem Exact.ite {condition : Prop} [Decidable condition]
    {yes no : Bytes → Option (Value × Bytes)} (hyes : Exact n yes) (hno : Exact n no) :
    Exact n fun cursor ↦ if condition then yes cursor else no cursor := by
  by_cases h : condition
  · simpa only [if_pos h] using hyes
  · simpa only [if_neg h] using hno

/-- What is read may be refused, or given another form. -/
theorem Exact.checked {read : Bytes → Option (Value × Bytes)} (h : Exact n read)
    (refused : Value → Prop) [DecidablePred refused] (next : Value → Next) :
    Exact n fun cursor ↦ (read cursor).bind fun result ↦
      if refused result.1 then none else some (next result.1, result.2) := by
  show Exact (n + 0) _
  refine h.bind fun value ↦ ?_
  by_cases hrefused : refused value
  · simpa only [if_pos hrefused] using exact_none
  · simpa only [if_neg hrefused] using exact_some (next value)

theorem Exact.map {read : Bytes → Option (Value × Bytes)} (h : Exact n read) (next : Value → Next) :
    Exact n fun cursor ↦ (read cursor).map fun result ↦ (next result.1, result.2) := by
  intro cursor value rest hread
  obtain ⟨⟨found, after⟩, hfound, hsame⟩ := Option.map_eq_some_iff.mp hread
  obtain ⟨rfl, rfl⟩ := Prod.mk.inj hsame
  obtain ⟨consumed, hitems, rfl, hagain⟩ := h _ _ _ hfound
  exact ⟨consumed, hitems, rfl, fun rest' ↦ by simp only [hagain, Option.map_some]⟩

theorem Exact.congr {read read' : Bytes → Option (Value × Bytes)} (h : Exact n read)
    (hsame : ∀ cursor, read' cursor = read cursor) : Exact n read' := by
  rwa [funext hsame]

end Readers

section Primitives

variable {Value : Type} {minimal : ℕ → ℕ} {major raw n : ℕ} {cursor rest : Bytes}

/-- A form that a stricter reader accepts. -/
theorem HeadForm.lax {head : Bytes} (h : HeadForm minimal major raw head) :
    HeadForm (fun _ ↦ 0) major raw head := by
  cases h with
  | short hvalue => exact .short hvalue
  | wide info width hwidth _ hfits => exact .wide info width hwidth (Nat.zero_le _) hfits

/-- The head that was read, and that it would be read whatever came after it. -/
theorem readHeadWith_exact (h : readHeadWith minimal cursor = some (major, raw, rest)) :
    ∃ head, HeadForm (fun _ ↦ 0) major raw head ∧ cursor = head ++ rest ∧
      ∀ rest', readHeadWith minimal (head ++ rest') = some (major, raw, rest') := by
  obtain ⟨hmajor, head, hform, rfl⟩ := readHeadWith_form h
  exact ⟨head, hform.lax, rfl, readHeadWith_of_form hmajor hform⟩

/-- Reads a head and the bytes of an item without items in it, and makes a value of them. -/
def readPlain (minimal : ℕ → ℕ) (value : ℕ → ℕ → Bytes → Option Value) (cursor : Bytes) :
    Option (Value × Bytes) :=
  match readHeadWith minimal cursor with
  | none => none
  | some (major, raw, rest) =>
    if rest.length < dataLength major raw then none
    else (value major raw (rest.take (dataLength major raw))).map fun value ↦
      (value, rest.drop (dataLength major raw))

theorem exact_readPlain {value : ℕ → ℕ → Bytes → Option Value}
    (hplain : ∀ major raw data result, value major raw data = some result → IsPlain major) :
    Exact 1 (readPlain minimal value) := by
  intro cursor result rest hread
  unfold readPlain at hread
  cases hhead : readHeadWith minimal cursor with
  | none => simp [hhead] at hread
  | some found =>
    obtain ⟨major, raw, after⟩ := found
    simp only [hhead] at hread
    split_ifs at hread with hshort
    obtain ⟨found, hvalue, hsame⟩ := Option.map_eq_some_iff.mp hread
    obtain ⟨rfl, rfl⟩ := Prod.mk.inj hsame
    obtain ⟨head, hform, rfl, hagain⟩ := readHeadWith_exact hhead
    generalize hlength : dataLength major raw = length at hshort hvalue
    have hdata : (after.take length).length = length := by
      rw [List.length_take]
      omega
    refine ⟨head ++ (after.take length ++ []),
      .plain (hplain _ _ _ _ hvalue) hform (hdata.trans hlength.symm) .nil, ?_, fun rest' ↦ ?_⟩
    · rw [List.append_nil, List.append_assoc, List.take_append_drop]
    · rw [List.append_nil, List.append_assoc, readPlain, hagain]
      dsimp only
      rw [hlength, if_neg (by rw [List.length_append]; omega), List.take_left' hdata,
        List.drop_left' hdata, hvalue]
      rfl

theorem exact_readUint : Exact 1 readUint := by
  have hread : readUint = readPlain minimalArgument
      (fun major raw _ ↦ if major = majorUint then some raw else none) := by
    funext cursor
    unfold readUint readPlain readHead
    cases readHeadWith minimalArgument cursor with
    | none => rfl
    | some found =>
      obtain ⟨major, raw, rest⟩ := found
      dsimp only
      by_cases hmajor : major = majorUint
      · subst hmajor
        simp [dataLength, majorUint, majorBytes, majorText]
      · simp [hmajor]
  rw [hread]
  refine exact_readPlain fun major raw data result h ↦ ?_
  split_ifs at h with hmajor
  exact Or.inl hmajor

theorem exact_readInt : Exact 1 readInt := by
  have hread : readInt = readPlain minimalArgument fun major raw _ ↦
      if major = majorUint then if int64Max < raw then none else some (raw : ℤ)
      else if major = majorNegint then if int64Max < raw then none else some (-1 - (raw : ℤ))
      else none := by
    funext cursor
    unfold readInt readPlain readHead
    cases readHeadWith minimalArgument cursor with
    | none => rfl
    | some found =>
      obtain ⟨major, raw, rest⟩ := found
      dsimp only
      by_cases huint : major = majorUint
      · subst huint
        by_cases hlarge : int64Max < raw <;>
          simp [dataLength, majorUint, majorBytes, majorText, hlarge]
      · by_cases hnegint : major = majorNegint
        · subst hnegint
          by_cases hlarge : int64Max < raw <;>
            simp [dataLength, majorUint, majorNegint, majorBytes, majorText, hlarge]
        · simp [huint, hnegint]
  rw [hread]
  refine exact_readPlain fun major raw data result h ↦ ?_
  split_ifs at h with huint hlarge hnegint
  · exact Or.inl huint
  · exact Or.inr (Or.inl hnegint)

theorem exact_readBytes : Exact 1 readBytes := by
  have hread : readBytes = readPlain minimalArgument
      (fun major _ data ↦ if major = majorBytes then some data else none) := by
    funext cursor
    unfold readBytes readPlain readHead
    cases readHeadWith minimalArgument cursor with
    | none => rfl
    | some found =>
      obtain ⟨major, raw, rest⟩ := found
      dsimp only
      by_cases hmajor : major = majorBytes
      · subst hmajor
        simp [dataLength]
      · simp [hmajor]
  rw [hread]
  refine exact_readPlain fun major raw data result h ↦ ?_
  split_ifs at h with hmajor
  exact Or.inr (Or.inr (Or.inl hmajor))

theorem exact_readText : Exact 1 readText := by
  have hread : readText = readPlain minimalArgument fun major _ text ↦
      if major = majorText ∧ utf8IsValid text = true then some text else none := by
    funext cursor
    unfold readText readPlain readHead
    cases readHeadWith minimalArgument cursor with
    | none => rfl
    | some found =>
      obtain ⟨major, raw, rest⟩ := found
      dsimp only
      by_cases hmajor : major = majorText
      · subst hmajor
        by_cases hvalid : utf8IsValid (rest.take raw) = true <;> simp [dataLength, hvalid]
      · simp [hmajor]
  rw [hread]
  refine exact_readPlain fun major raw data result h ↦ ?_
  split_ifs at h with htext
  exact Or.inr (Or.inr (Or.inr (Or.inl htext.1)))

theorem exact_readBool : Exact 1 readBool := by
  have hform (info : ℕ) (hinfo : info < 24) : Items 1 [UInt8.ofNat (majorSimple * 32 + info)] :=
    .plain (Or.inr (Or.inr (Or.inr (Or.inr rfl)))) (.short hinfo)
      (show ([] : Bytes).length = _ from rfl) .nil
  intro cursor value rest hread
  cases cursor with
  | nil => simp [readBool] at hread
  | cons byte tail =>
    simp only [readBool] at hread
    split_ifs at hread with hfalse htrue
    · obtain ⟨rfl, rfl⟩ := Prod.mk.inj (Option.some.inj hread)
      rw [hfalse]
      exact ⟨_, hform 20 (by decide), rfl, fun _ ↦ rfl⟩
    · obtain ⟨rfl, rfl⟩ := Prod.mk.inj (Option.some.inj hread)
      rw [htrue]
      exact ⟨_, hform 21 (by decide), rfl, fun _ ↦ rfl⟩

/-- The head of a container that was read. -/
theorem readStart_exact (h : readStart major cursor = some (raw, rest)) :
    ∃ head, HeadForm (fun _ ↦ 0) major raw head ∧ cursor = head ++ rest ∧
      ∀ rest', readStart major (head ++ rest') = some (raw, rest') := by
  unfold readStart readHead at h
  cases hhead : readHeadWith minimalArgument cursor with
  | none => simp [hhead] at h
  | some found =>
    obtain ⟨major', raw', after⟩ := found
    simp only [hhead] at h
    split_ifs at h with hother hlarge
    obtain ⟨rfl, rfl⟩ := Prod.mk.inj (Option.some.inj h)
    rw [not_not] at hother
    subst hother
    obtain ⟨head, hform, rfl, hagain⟩ := readHeadWith_exact hhead
    refine ⟨head, hform, rfl, fun rest' ↦ ?_⟩
    simp [readStart, readHead, hagain, hlarge]

/-- A container whose items are read by an exact reader. -/
theorem exact_container (hmajor : IsContainer major) {body : ℕ × Bytes → Option (Value × Bytes)}
    (h : ∀ raw, Exact (itemCount major raw) fun cursor ↦ body (raw, cursor)) :
    Exact 1 fun cursor ↦ (readStart major cursor).bind body := by
  intro cursor value rest hread
  obtain ⟨⟨raw, after⟩, hstart, hbody⟩ := Option.bind_eq_some_iff.mp hread
  obtain ⟨head, hform, rfl, hagain⟩ := readStart_exact hstart
  obtain ⟨consumed, hitems, rfl, hagain'⟩ := h raw after value rest hbody
  refine ⟨head ++ (consumed ++ []), .container hmajor hform hitems .nil, by simp, fun rest' ↦ ?_⟩
  dsimp only
  rw [List.append_nil, List.append_assoc, hagain, Option.bind_some]
  exact hagain' rest'

/-- Skipping, as a reader without a value. -/
def skipping (skipItem : Bytes → Option Bytes) (cursor : Bytes) : Option (Unit × Bytes) :=
  (skipItem cursor).map fun rest ↦ ((), rest)

theorem exact_skipItems {skipItem : Bytes → Option Bytes} (h : Exact 1 (skipping skipItem))
    (count : ℕ) : Exact count (skipping (skipItems skipItem count)) := by
  induction count with
  | zero => exact exact_some ()
  | succ count ih =>
    have hnext : skipping (skipItems skipItem (count + 1)) = fun cursor ↦
        (skipping skipItem cursor).bind fun result ↦
          skipping (skipItems skipItem count) result.2 := by
      funext cursor
      unfold skipping
      rw [skipItems]
      cases skipItem cursor <;> rfl
    rw [hnext, Nat.add_comm]
    exact h.bind fun _ ↦ ih

/-- Skipping an item without items in it. -/
theorem skipInner_plain {levels : ℕ} (h : skipReadHead cursor = some (major, raw, rest))
    (hmajor : IsPlain major) :
    skipInner (levels + 1) cursor =
      if rest.length < dataLength major raw ∨ major = majorSimple ∧ raw = 31 then none
      else some (rest.drop (dataLength major raw)) := by
  obtain rfl | rfl | rfl | rfl | rfl := hmajor
  · simp [skipInner_integer h (Or.inl rfl), dataLength, majorUint, majorBytes, majorText,
      majorSimple]
  · simp [skipInner_integer h (Or.inr rfl), dataLength, majorNegint, majorBytes, majorText,
      majorSimple]
  · simp [skipInner_string h (Or.inl rfl), dataLength, majorBytes, majorSimple]
  · simp [skipInner_string h (Or.inr rfl), dataLength, majorText, majorSimple]
  · by_cases hbreak : raw = 31 <;>
      simp [skipInner_simple h rfl, dataLength, majorBytes, majorText, majorSimple, hbreak]

/-- What is skipped is of one of the kinds. -/
theorem isPlain_of_skipInner {levels : ℕ} {after : Bytes}
    (h : skipReadHead cursor = some (major, raw, after))
    (hskip : skipInner (levels + 1) cursor = some rest) (hmajor : ¬IsContainer major) :
    IsPlain major := by
  unfold IsContainer at hmajor
  unfold IsPlain
  simp only [skipInner, h] at hskip
  split_ifs at hskip <;> tauto

theorem exact_skipInner (levels : ℕ) : Exact 1 (skipping (skipInner levels)) := by
  induction levels with
  | zero => exact exact_none
  | succ levels ih =>
    intro cursor value rest hread
    obtain ⟨left, hskip, hsame⟩ := Option.map_eq_some_iff.mp hread
    obtain ⟨-, rfl⟩ := Prod.mk.inj hsame
    cases hhead : skipReadHead cursor with
    | none => simp [skipInner, hhead] at hskip
    | some found =>
      obtain ⟨major, raw, after⟩ := found
      obtain ⟨head, hform, rfl, hagain⟩ := readHeadWith_exact hhead
      by_cases hmajor : IsContainer major
      · rw [skipInner_container hhead hmajor] at hskip
        obtain ⟨consumed, hitems, rfl, hsame⟩ := exact_skipItems ih (itemCount major raw) after ()
          left (by rw [skipping, hskip]; rfl)
        refine ⟨head ++ (consumed ++ []), .container hmajor hform hitems .nil, by simp,
          fun rest' ↦ ?_⟩
        have hskip' := hsame rest'
        rw [List.append_nil, List.append_assoc, skipping, skipInner_container (hagain _) hmajor]
        exact hskip'
      · have hplain := isPlain_of_skipInner hhead hskip hmajor
        rw [skipInner_plain hhead hplain] at hskip
        split_ifs at hskip with hrefused
        rw [not_or] at hrefused
        obtain rfl := Option.some.inj hskip
        have hdata : (after.take (dataLength major raw)).length = dataLength major raw := by
          rw [List.length_take]
          omega
        refine ⟨head ++ (after.take (dataLength major raw) ++ []),
          .plain hplain hform hdata .nil, by simp, fun rest' ↦ ?_⟩
        rw [List.append_nil, List.append_assoc, skipping, skipInner_plain (hagain _) hplain,
          if_neg, List.drop_left' hdata]
        · rfl
        · rw [List.length_append, hdata]
          exact fun hnot ↦ hnot.elim (fun hshort ↦ by omega) hrefused.2

theorem exact_skip : Exact 1 (skipping skip) := exact_skipInner _

/-- What the encoder writes for a tree is one item. -/
theorem Tree.items_encoding {tree : Tree} (hlength : tree.encoding.length < 2 ^ 64) :
    Items 1 tree.encoding := by
  have hskip := skipInner_encoding (Nat.lt_succ_self tree.depth) hlength []
  obtain ⟨consumed, hitems, hsame, -⟩ := exact_skipInner (tree.depth + 1) _ () []
    (by rw [skipping, hskip]; rfl)
  rw [List.append_nil, List.append_nil] at hsame
  rwa [hsame]

theorem items_encodings {trees : List Tree} (hlength : (encodings trees).length < 2 ^ 64) :
    Items trees.length (encodings trees) := by
  induction trees with
  | nil => exact .nil
  | cons tree trees ih =>
    rw [encodings, List.length_append] at hlength
    have hfirst : tree.encoding.length < 2 ^ 64 := by omega
    have hothers : (encodings trees).length < 2 ^ 64 := by omega
    rw [encodings, List.length_cons, Nat.add_comm]
    exact (Tree.items_encoding hfirst).append (ih hothers)

end Primitives

end ZeroFido.Cbor
