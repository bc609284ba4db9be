import ZeroFido.Cbor.Chains
import ZeroFido.Ctap.MapOrder
import ZeroFido.Ctap.RequestLimits

/-!
# Members of the input

The bytes of maps and arrays as what stands in them (`IsMapOf`, `IsArrayOf`), and the value that a
map has under a key, when it has one only (`HasMember`).

`Reads` is what a parser makes of the bytes it takes. The loops over maps and arrays carry an
invariant of the state and of what has been read so far (`reads_mapLoop`, `reads_arrayLoop`); for
the loop over a request map, `Keyed.member_of_parse` gives the value that a part of the request
comes from.
-/

set_option autoImplicit false
set_option relaxedAutoImplicit false

namespace ZeroFido.Ctap

open Cbor Store

section Input

def uintItem (value : ℕ) : Bytes := headBytes majorUint value
def bytesItem (data : Bytes) : Bytes := stringBytes majorBytes data
def textItem (text : Bytes) : Bytes := stringBytes majorText text

/-- The bytes are a map with these pairs, each a key and a value. -/
structure IsMapOf (bytes : Bytes) (pairs : List (Bytes × Bytes)) : Prop where
  whole : bytes = headBytes majorMap pairs.length ++ pairsBytes pairs
  items : ∀ pair ∈ pairs, IsPair pair

/-- The bytes are an array of these items. -/
structure IsArrayOf (bytes : Bytes) (elements : List Bytes) : Prop where
  whole : bytes = headBytes majorArray elements.length ++ elements.flatten
  items : ∀ element ∈ elements, Items 1 element

/-- The values that stand under a key. -/
def valuesOf (key : Bytes) (pairs : List (Bytes × Bytes)) : List Bytes :=
  (pairs.filter fun pair ↦ pair.1 == key).map Prod.snd

/-- The bytes are a map in which the key stands once, with the value. -/
def HasMember (bytes key value : Bytes) : Prop :=
  ∃ pairs, IsMapOf bytes pairs ∧ valuesOf key pairs = [value]

/-- The bytes are a map in which the key does not stand. -/
def LacksMember (bytes key : Bytes) : Prop :=
  ∃ pairs, IsMapOf bytes pairs ∧ valuesOf key pairs = []

variable {key value : Bytes} {pair : Bytes × Bytes} {pairs : List (Bytes × Bytes)}

theorem valuesOf_append_same (h : pair.1 = key) :
    valuesOf key (pairs ++ [pair]) = valuesOf key pairs ++ [pair.2] := by
  simp [valuesOf, h]

theorem valuesOf_append_other (h : pair.1 ≠ key) :
    valuesOf key (pairs ++ [pair]) = valuesOf key pairs := by
  simp [valuesOf, h]

theorem valuesOf_cons_same (h : pair.1 = key) :
    valuesOf key (pair :: pairs) = pair.2 :: valuesOf key pairs := by
  simp [valuesOf, h]

theorem valuesOf_cons_other (h : pair.1 ≠ key) :
    valuesOf key (pair :: pairs) = valuesOf key pairs := by
  simp [valuesOf, h]

theorem mem_of_valuesOf (h : value ∈ valuesOf key pairs) : (key, value) ∈ pairs := by
  obtain ⟨found, hfound, rfl⟩ := List.mem_map.mp h
  obtain ⟨hmem, hkey⟩ := List.mem_filter.mp hfound
  obtain rfl := eq_of_beq hkey
  exact hmem

end Input

section Reads

variable {Value Next State : Type} {parser : Parser Value} {post mid : Value → Bytes → Prop}
  {n : ℕ}

/-- What the parser returns and the bytes it has taken for it. -/
def Reads (parser : Parser Value) (post : Value → Bytes → Prop) : Prop :=
  ∀ cursor value rest, parser.run cursor = .ok (value, rest) →
    ∃ consumed, cursor = consumed ++ rest ∧ post value consumed

theorem reads_pure {value : Value} (h : post value []) : Reads (pure value) post := by
  intro cursor value' rest hrun
  obtain ⟨rfl, rfl⟩ := Prod.mk.inj (Except.ok.inj hrun)
  exact ⟨[], rfl, h⟩

theorem Reads.bind {next : Value → Parser Next} {post : Next → Bytes → Prop}
    (h : Reads parser mid)
    (hnext : ∀ value bytes, mid value bytes →
      Reads (next value) fun result bytes' ↦ post result (bytes ++ bytes')) :
    Reads (parser >>= next) post := by
  intro cursor result rest hrun
  rw [StateT.run_bind] at hrun
  cases hfirst : parser.run cursor with
  | error status =>
    rw [hfirst] at hrun
    exact absurd (show (Except.error status : Except CtapStatus (Next × Bytes)) = _ from hrun)
      (by simp)
  | ok found =>
    obtain ⟨value, after⟩ := found
    rw [hfirst] at hrun
    obtain ⟨bytes, rfl, hmid⟩ := h cursor value after hfirst
    obtain ⟨bytes', rfl, hpost⟩ := hnext value bytes hmid after result rest hrun
    exact ⟨bytes ++ bytes', (List.append_assoc _ _ _).symm, hpost⟩

/-- What follows takes nothing. -/
theorem Reads.andThen {next : Value → Parser Next} {post : Next → Bytes → Prop}
    (h : Reads parser mid)
    (hnext : ∀ value bytes, mid value bytes →
      Reads (next value) fun result bytes' ↦ bytes' = [] ∧ post result bytes) :
    Reads (parser >>= next) post := by
  refine h.bind fun value bytes hmid cursor result rest hrun ↦ ?_
  obtain ⟨_, rfl, rfl, hpost⟩ := hnext value bytes hmid cursor result rest hrun
  exact ⟨[], rfl, by simpa using hpost⟩

theorem Reads.returning {next : Value → Next} {post : Next → Bytes → Prop} (h : Reads parser mid)
    (hnext : ∀ value bytes, mid value bytes → post (next value) bytes) :
    Reads (parser >>= fun value ↦ pure (next value)) post :=
  h.andThen fun value bytes hmid ↦ reads_pure ⟨rfl, hnext value bytes hmid⟩

/-- A check in front of a parser. -/
theorem Reads.refused {condition : Bool} {status : CtapStatus}
    (h : condition = false → Reads parser post) :
    Reads (refuseIf condition status >>= fun _ ↦ parser) post := by
  cases condition with
  | true => exact fun _ _ _ hrun ↦ absurd (show (Except.error status :
      Except CtapStatus (Value × Bytes)) = _ from hrun) (by simp)
  | false => exact h rfl

/-- Of what a parser takes, the items. -/
theorem Consumes.reads (h : Consumes n parser) : Reads parser fun _ bytes ↦ Items n bytes := by
  intro cursor value rest hrun
  have hread : (parser.run cursor).toOption = some (value, rest) := by
    rw [hrun]
    rfl
  obtain ⟨consumed, hitems, hcursor, -⟩ := h cursor value rest hread
  exact ⟨consumed, hcursor, hitems⟩

theorem Reads.and {post' : Value → Bytes → Prop} (h : Reads parser post)
    (h' : Reads parser post') :
    Reads parser fun value bytes ↦ post value bytes ∧ post' value bytes := by
  intro cursor value rest hrun
  obtain ⟨bytes, rfl, hpost⟩ := h cursor value rest hrun
  obtain ⟨bytes', hsame, hpost'⟩ := h' _ value rest hrun
  obtain rfl := List.append_cancel_right hsame
  exact ⟨bytes, rfl, hpost, hpost'⟩

/-- An exact reader would read from what it has taken alone. -/
theorem reads_cborRead {read : Bytes → Option (Value × Bytes)} (h : Exact n read) :
    Reads (cborRead read) fun value bytes ↦ read bytes = some (value, []) := by
  intro cursor value rest hrun
  cases hread : read cursor with
  | none =>
    rw [run_cborRead_of_none hread] at hrun
    exact absurd hrun (by simp)
  | some result =>
    rw [run_cborRead_of_some hread] at hrun
    obtain rfl := Except.ok.inj hrun
    obtain ⟨consumed, -, rfl, hagain⟩ := h cursor value rest hread
    exact ⟨consumed, rfl, by simpa using hagain []⟩

theorem reads_readStart (major : ℕ) : Reads (cborRead (readStart major)) fun count bytes ↦
    bytes = headBytes major count := by
  intro cursor count rest hrun
  cases hread : readStart major cursor with
  | none =>
    rw [run_cborRead_of_none hread] at hrun
    exact absurd hrun (by simp)
  | some result =>
    rw [run_cborRead_of_some hread] at hrun
    obtain rfl := Except.ok.inj hrun
    exact ⟨_, (readStart_canonical hread).1, rfl⟩

end Reads

section Loops

variable {Value State : Type} {turn : State → Parser State} {finish : State → Parser Value}

/-- The turns of a loop each read one more of the pieces. -/
theorem reads_repeated {Piece : Type} {bytesOf : Piece → Bytes}
    {invariant : State → List Piece → Prop}
    (hturn : ∀ state pieces, invariant state pieces → Reads (turn state) fun next bytes ↦
      ∃ piece, bytes = bytesOf piece ∧ invariant next (pieces ++ [piece]))
    (count : ℕ) (state : State) (pieces : List Piece) (hstate : invariant state pieces) :
    Reads (repeated turn count state) fun final bytes ↦
      ∃ more, more.length = count ∧ bytes = more.flatMap bytesOf ∧
        invariant final (pieces ++ more) := by
  induction count generalizing state pieces with
  | zero => exact reads_pure ⟨[], rfl, rfl, by simpa using hstate⟩
  | succ count ih =>
    refine (hturn state pieces hstate).bind fun next bytes hnext ↦ ?_
    obtain ⟨piece, rfl, hnext⟩ := hnext
    intro cursor final rest hrun
    obtain ⟨bytes', rfl, more, rfl, rfl, hfinal⟩ := ih next _ hnext cursor final rest hrun
    exact ⟨_, rfl, piece :: more, rfl, rfl, by simpa using hfinal⟩

/-- A map whose pairs a loop takes. -/
theorem reads_mapLoop {invariant : State → List (Bytes × Bytes) → Prop}
    {post : Value → Bytes → Prop}
    (hturn : ∀ state pairs, invariant state pairs → Reads (turn state) fun next bytes ↦
      ∃ pair : Bytes × Bytes, bytes = pair.1 ++ pair.2 ∧ IsPair pair ∧
        invariant next (pairs ++ [pair]))
    (hfinish : ∀ state pairs bytes, invariant state pairs → IsMapOf bytes pairs →
      Reads (finish state) fun value bytes' ↦ bytes' = [] ∧ post value bytes)
    {state : State} (hstate : invariant state []) :
    Reads (cborRead readMapStart >>= fun pairs ↦ repeated turn pairs state >>= finish) post := by
  refine (reads_readStart majorMap).bind fun count head hhead ↦ ?_
  let whole (state : State) (pairs : List (Bytes × Bytes)) : Prop :=
    invariant state pairs ∧ ∀ pair ∈ pairs, IsPair pair
  have hloop (state : State) (pairs : List (Bytes × Bytes)) (h : whole state pairs) :
      Reads (turn state) fun next bytes ↦
        ∃ pair : Bytes × Bytes, bytes = pair.1 ++ pair.2 ∧ whole next (pairs ++ [pair]) := by
    intro cursor next rest hrun
    obtain ⟨bytes, rfl, pair, rfl, hpair, hnext⟩ := hturn state pairs h.1 cursor next rest hrun
    refine ⟨_, rfl, pair, rfl, hnext, fun found hfound ↦ ?_⟩
    rcases List.mem_append.mp hfound with hfound | hfound
    · exact h.2 found hfound
    · rwa [List.mem_singleton.mp hfound]
  refine (reads_repeated hloop count state [] ⟨hstate, by simp⟩).andThen fun final bytes hfinal ↦ ?_
  obtain ⟨pairs, rfl, rfl, hfinal, hpairs⟩ := hfinal
  rw [List.nil_append] at hfinal hpairs
  exact hfinish final pairs _ hfinal ⟨by rw [hhead]; rfl, hpairs⟩

/-- An array whose items a loop takes. -/
theorem reads_arrayLoop {invariant : State → List Bytes → Prop}
    (hturn : ∀ state elements, invariant state elements → Reads (turn state) fun next bytes ↦
      invariant next (elements ++ [bytes]))
    (hitems : ∀ state, Consumes 1 (turn state)) {state : State} (hstate : invariant state []) :
    Reads (cborRead readArrayStart >>= fun items ↦ repeated turn items state) fun final bytes ↦
      ∃ elements, IsArrayOf bytes elements ∧ invariant final elements := by
  refine (reads_readStart majorArray).bind fun count head hhead ↦ ?_
  let whole (state : State) (elements : List Bytes) : Prop :=
    invariant state elements ∧ ∀ element ∈ elements, Items 1 element
  have hloop (state : State) (elements : List Bytes) (h : whole state elements) :
      Reads (turn state) fun next bytes ↦
        ∃ element, bytes = id element ∧ whole next (elements ++ [element]) := by
    intro cursor next rest hrun
    obtain ⟨bytes, rfl, hnext, hitem⟩ :=
      ((hturn state elements h.1).and (hitems state).reads) cursor next rest hrun
    refine ⟨bytes, rfl, bytes, rfl, hnext, fun found hfound ↦ ?_⟩
    rcases List.mem_append.mp hfound with hfound | hfound
    · exact h.2 found hfound
    · rwa [List.mem_singleton.mp hfound]
  intro cursor final rest hrun
  obtain ⟨_, rfl, elements, rfl, rfl, hfinal, helements⟩ :=
    reads_repeated hloop count state [] ⟨hstate, by simp⟩ cursor final rest hrun
  rw [List.nil_append] at hfinal helements
  exact ⟨_, rfl, elements, ⟨by rw [hhead, List.flatMap_id], helements⟩, hfinal⟩

end Loops

section Texts

variable {State : Type}

theorem reads_readText : Reads (cborRead readText) fun text bytes ↦
    bytes = textItem text ∧ readText bytes = some (text, []) := by
  intro cursor text rest hrun
  obtain ⟨bytes, rfl, hread⟩ := reads_cborRead exact_readText cursor text rest hrun
  exact ⟨bytes, rfl, by simpa [textItem] using (readText_canonical hread).1, hread⟩

theorem reads_readBytes : Reads (cborRead readBytes) fun data bytes ↦ bytes = bytesItem data := by
  intro cursor data rest hrun
  obtain ⟨bytes, rfl, hread⟩ := reads_cborRead exact_readBytes cursor data rest hrun
  exact ⟨bytes, rfl, by simpa [bytesItem] using readBytes_canonical hread⟩

theorem reads_readInt : Reads (cborRead readInt) fun value bytes ↦ bytes = intBytes value := by
  intro cursor value rest hrun
  obtain ⟨bytes, rfl, hread⟩ := reads_cborRead exact_readInt cursor value rest hrun
  exact ⟨bytes, rfl, by simpa using readInt_canonical hread⟩

theorem reads_cborReadTextCopy (outSize : ℕ) :
    Reads (cborRead (cborReadTextCopy · outSize)) fun text bytes ↦
      bytes = textItem text ∧ TextField text outSize := by
  intro cursor text rest hrun
  have hfits := returns_cborReadTextCopy outSize cursor text rest hrun
  obtain ⟨bytes, rfl, hread⟩ :=
    reads_cborRead (exact_cborReadTextCopy outSize) cursor text rest hrun
  refine ⟨bytes, rfl, ?_, hfits⟩
  unfold cborReadTextCopy at hread
  cases hfound : readText bytes with
  | none => simp [hfound] at hread
  | some found =>
    obtain ⟨text', rest'⟩ := found
    simp only [hfound] at hread
    split_ifs at hread
    obtain ⟨rfl, rfl⟩ := Prod.mk.inj (Option.some.inj hread)
    simpa [textItem] using (readText_canonical hfound).1

theorem reads_cborReadBytesCopy (outCapacity : ℕ) :
    Reads (cborRead (cborReadBytesCopy · outCapacity)) fun data bytes ↦
      bytes = bytesItem data ∧ data.length ≤ outCapacity := by
  intro cursor data rest hrun
  have hfits := returns_cborReadBytesCopy outCapacity cursor data rest hrun
  obtain ⟨bytes, rfl, hread⟩ :=
    reads_cborRead (exact_cborReadBytesCopy outCapacity) cursor data rest hrun
  refine ⟨bytes, rfl, ?_, hfits⟩
  unfold cborReadBytesCopy at hread
  cases hfound : readBytes bytes with
  | none => simp [hfound] at hread
  | some found =>
    obtain ⟨data', rest'⟩ := found
    simp only [hfound] at hread
    split_ifs at hread
    obtain ⟨rfl, rfl⟩ := Prod.mk.inj (Option.some.inj hread)
    simpa [bytesItem] using readBytes_canonical hfound

/-- A pair with a text as its key. -/
theorem reads_textPair {value : Bytes → Parser State} {post : State → Bytes × Bytes → Prop}
    (hitems : Consumes 2 (cborRead readText >>= value))
    (hvalue : ∀ key, readText (textItem key) = some (key, []) →
      Reads (value key) fun state bytes ↦ post state (textItem key, bytes)) :
    Reads (cborRead readText >>= value) fun state bytes ↦
      ∃ pair : Bytes × Bytes, bytes = pair.1 ++ pair.2 ∧ IsPair pair ∧ post state pair := by
  have hkey := reads_readText.and (consumes_cborRead exact_readText).reads
  have hpair : Reads (cborRead readText >>= value) fun state bytes ↦
      ∃ pair : Bytes × Bytes, bytes = pair.1 ++ pair.2 ∧ Items 1 pair.1 ∧ post state pair := by
    refine hkey.bind fun key bytes hkey ↦ ?_
    obtain ⟨⟨rfl, hread⟩, hitem⟩ := hkey
    intro cursor state rest hrun
    obtain ⟨bytes', rfl, hpost⟩ := hvalue key hread cursor state rest hrun
    exact ⟨bytes', rfl, (textItem key, bytes'), rfl, hitem, hpost⟩
  intro cursor state rest hrun
  obtain ⟨bytes, rfl, ⟨pair, rfl, hfirst, hpost⟩, htwo⟩ :=
    (hpair.and hitems.reads) cursor state rest hrun
  exact ⟨_, rfl, pair, rfl, ⟨hfirst, Items.strip (show Items (1 + 1) _ from htwo) hfirst⟩, hpost⟩

variable {text name value : Bytes} {kind : TextKey} {pair : Bytes × Bytes}
  {pairs : List (Bytes × Bytes)}

/-- Each text has a kind of its own. -/
theorem classifyTextKey_eq_iff (hentry : (name, kind) ∈ textKeys) :
    classifyTextKey text = kind ↔ text = name := by
  have hknown : ∀ entry ∈ textKeys, classifyTextKey entry.1 = entry.2 := by decide +kernel
  have hname : ∀ entry ∈ textKeys, entry.2 ≠ .unknown ∧
      ∀ other ∈ textKeys, other.2 = entry.2 → other.1 = entry.1 := by decide +kernel
  constructor
  · intro hkind
    cases hfound : textKeys.find? fun entry ↦ entry.1 == text with
    | none =>
      rw [classifyTextKey, hfound] at hkind
      exact absurd hkind.symm (hname _ hentry).1
    | some found =>
      rw [classifyTextKey, hfound] at hkind
      have htext := List.find?_some hfound
      obtain rfl := eq_of_beq htext
      exact (hname _ hentry).2 found (List.mem_of_find?_eq_some hfound) hkind
  · rintro rfl
    exact hknown _ hentry

/-- A key is another one than a text of another kind. -/
theorem textItem_ne (hentry : (name, kind) ∈ textKeys)
    (htext : readText (textItem text) = some (text, [])) (hkind : classifyTextKey text ≠ kind) :
    textItem text ≠ textItem name := by
  have hread : ∀ entry ∈ textKeys, readText (textItem entry.1) = some (entry.1, []) := by
    decide +kernel
  intro hsame
  rw [hsame, hread _ hentry] at htext
  exact hkind ((classifyTextKey_eq_iff hentry).mpr (Prod.mk.inj (Option.some.inj htext)).1.symm)

/-- Under the name stands the value when it has been seen, and else nothing. -/
def Recorded (name : Bytes) (saw : Bool) (value : Bytes) (pairs : List (Bytes × Bytes)) : Prop :=
  valuesOf (textItem name) pairs = onlyIf saw [value]

theorem recorded_nil : Recorded name false value [] := rfl

theorem Recorded.found {old : Bytes} (h : Recorded name false old pairs)
    (hpair : pair.1 = textItem name) : Recorded name true pair.2 (pairs ++ [pair]) := by
  unfold Recorded at *
  rw [valuesOf_append_same hpair, h]
  rfl

theorem Recorded.other {saw : Bool} (h : Recorded name saw value pairs)
    (hpair : pair.1 ≠ textItem name) : Recorded name saw value (pairs ++ [pair]) := by
  unfold Recorded at *
  rw [valuesOf_append_other hpair, h]

theorem Recorded.hasMember {bytes : Bytes} {saw : Bool} (h : Recorded name saw value pairs)
    (hsaw : saw = true) (hmap : IsMapOf bytes pairs) : HasMember bytes (textItem name) value := by
  obtain rfl := hsaw
  exact ⟨pairs, hmap, h⟩

end Texts

section Fields

variable {Request : Type} {field : ℕ → Request → Parser Request}
  {put : ℕ → Request → Request → Request} {initial : Request} {valid : Request → Prop}
  {parse : Bytes → Except CtapStatus Request} {key : ℕ} {value : Bytes}
  {seenKeys : List ℕ} {pairs : List (Bytes × Bytes)}

/-- Bytes are read as a key when they are its item. -/
theorem readWhole_readUint_iff (hkey : key < 16) {bytes : Bytes} :
    readWhole readUint bytes = some key ↔ bytes = uintItem key := by
  rw [readWhole_eq_some]
  constructor
  · intro hread
    simpa [uintItem] using readUint_canonical hread
  · rintro rfl
    simpa [uintItem] using readUint_headBytes [] (hkey.trans (by decide))

theorem mem_trackedKeys (hkey : key < 16) (h : value ∈ valuesOf (uintItem key) pairs) :
    key ∈ trackedKeys pairs := by
  refine List.mem_filter.mpr ⟨List.mem_filterMap.mpr ⟨_, mem_of_valuesOf h, ?_⟩,
    decide_eq_true hkey⟩
  exact (readWhole_readUint_iff hkey).mpr rfl

/-- A key that has been seen stands in no pair to come. -/
theorem Unseen.valuesOf_eq_nil (h : Unseen seenKeys pairs) (hkey : key < 16)
    (hseen : key ∈ seenKeys) : valuesOf (uintItem key) pairs = [] :=
  List.eq_nil_iff_forall_not_mem.mpr fun _ hvalue ↦ h.fresh key (mem_trackedKeys hkey hvalue) hseen

/-- The part of a key comes from the pair with the key, when there is one. -/
theorem Keyed.part_of_fold (h : Keyed field put initial)
    (hsame : ∀ key new old, put key (put key new old) initial = put key new initial)
    (hkey : key < 16) {request final : Request} (hunseen : Unseen seenKeys pairs)
    (hfold : pairs.foldlM (pairField field) request = some final) :
    (valuesOf (uintItem key) pairs = [] ∧ put key final initial = put key request initial) ∨
      ∃ value new, valuesOf (uintItem key) pairs = [value] ∧
        fieldValue field key (put key request initial) value = some new ∧
          put key final initial = put key new initial := by
  induction pairs generalizing seenKeys request with
  | nil =>
    obtain rfl := Option.some.inj (show some request = some final from hfold)
    exact Or.inl ⟨rfl, rfl⟩
  | cons pair pairs ih =>
    rw [List.foldlM_cons] at hfold
    obtain ⟨request', hpair, hfold⟩ := Option.bind_eq_some_iff.mp hfold
    obtain ⟨found, hfound, hvalue⟩ := Option.bind_eq_some_iff.mp hpair
    obtain ⟨seenKeys', hmark, hunseen⟩ := (unseen_cons hfound seenKeys pairs).mp hunseen
    rw [h.fieldValue_eq] at hvalue
    obtain ⟨new, hnew, rfl⟩ := Option.map_eq_some_iff.mp hvalue
    have hrest := ih hunseen hfold
    by_cases hthis : found = key
    · obtain rfl := hthis
      have hfirst : pair.1 = uintItem found := (readWhole_readUint_iff hkey).mp hfound
      have hseen : found ∈ seenKeys' := by
        unfold markSeenKey at hmark
        rw [if_neg (by omega)] at hmark
        split_ifs at hmark
        rw [← Option.some.inj hmark]
        exact List.mem_cons_self
      have hno := hunseen.valuesOf_eq_nil hkey hseen
      rw [hno, hsame] at hrest
      obtain ⟨-, hfinal⟩ | ⟨value, _, hvalue, -⟩ := hrest
      · exact Or.inr ⟨pair.2, new, by rw [valuesOf_cons_same hfirst, hno], hnew, hfinal⟩
      · exact absurd hvalue (by simp)
    · have hother : pair.1 ≠ uintItem key := fun hfirst ↦
        hthis (Option.some.inj (hfound.symm.trans ((readWhole_readUint_iff hkey).mpr hfirst)))
      rw [h.put_other (Ne.symm hthis)] at hrest
      rwa [valuesOf_cons_other hother]

/-- What the field makes of the value it was read from. -/
theorem Reads.of_fieldValue {post : Request → Bytes → Prop} {request new : Request}
    (h : Reads (field key request) post) (hvalue : fieldValue field key request value = some new) :
    post new value := by
  have hread : ((field key request).run value).toOption = some (new, []) :=
    readWhole_eq_some.mp hvalue
  cases hrun : (field key request).run value with
  | error status => simp [hrun, Except.toOption] at hread
  | ok result =>
    rw [hrun] at hread
    obtain rfl := Option.some.inj hread
    obtain ⟨consumed, hsame, hpost⟩ := h value new [] hrun
    rw [List.append_nil] at hsame
    rwa [hsame]

/-- Of an accepted request, a part that belongs to a key comes from the value under the key. -/
theorem Keyed.member_of_parse (h : Keyed field put initial)
    (hparse : ParsesMap field initial valid parse)
    (hself : ∀ key request, put key request request = request)
    (hsame : ∀ key new old, put key (put key new old) initial = put key new initial)
    {data : Bytes} {final : Request} (hok : parse data = .ok final) (hkey : key < 16)
    {Part : Type} {part : Request → Part}
    (hpart : ∀ request, part (put key request initial) = part request)
    {post : Part → Bytes → Prop}
    (hpost : Reads (field key initial) fun new bytes ↦ post (part new) bytes) :
    (LacksMember data (uintItem key) ∧ part final = part initial) ∨
      ∃ value, HasMember data (uintItem key) value ∧ post (part final) value := by
  obtain ⟨count, cursor, hstart, hrun, -⟩ := (hparse data final).mp hok
  obtain ⟨pairs, rfl, hpairs, rfl⟩ := exists_pairs h.consumes hrun
  obtain ⟨-, hunseen, hfold⟩ :=
    (run_parseFields h.consumes hpairs [] initial final [] []).mp hrun
  have hmap : IsMapOf data pairs := by
    refine ⟨?_, hpairs⟩
    rw [← List.append_nil (pairsBytes pairs)]
    exact (readStart_canonical hstart).1
  obtain ⟨hno, hfinal⟩ | ⟨value, new, hvalue, hnew, hfinal⟩ :=
    h.part_of_fold hsame hkey hunseen hfold
  · have hsamePart : part final = part initial := by
      rw [← hpart final, hfinal, hself]
    exact Or.inl ⟨⟨pairs, hmap, hno⟩, hsamePart⟩
  · have hsamePart : part final = part new := by
      rw [← hpart final, hfinal, hpart]
    rw [hself] at hnew
    exact Or.inr ⟨value, ⟨pairs, hmap, hvalue⟩, hsamePart ▸ hpost.of_fieldValue hnew⟩

end Fields

end ZeroFido.Ctap
