/-
  Which jumps the gates refuse.

  1. **Specification**: an offset of a text is an offence (`Offends`) when a jump stands there and, in front of it, too few
     braces are open or there is no loop keyword.  All of this is said about the bytes of the text and its offsets in bytes.
     The keywords and the braces are one byte a character, so that they stand in the bytes where they stand in the text
     (`standsAt_iff`).

  2. **Invariant** (`LoopScan.Describes`): what the scan knows is the length in bytes, the balance, the characters and the
     keywords of the text in front of it.  The gate tests one character after another, and what it tests there is whether
     the offset is an offence (`LoopScan.Describes.strays_iff`).

  3. **Result** (`Settles`): the scan goes on only behind offsets that are no offences.  Those inside of a character are none
     either, for no word stands there.  So it stops at the first offence, or there is none (`scanJumps_settles`).
-/
import Mathlib.Order.Bounds.Basic
import SeedCorpus.Filter.Gates
import SeedCorpus.Proofs.Text.Balance
import SeedCorpus.Proofs.Text.Bytes

namespace SeedCorpus

/-! ## Offences

This is what the gate should find, said without a scan: at an offset, with everything in front of it. -/

/-- The bytes at an offset begin with a word. -/
def StandsAt (word : String) (bytes : List UInt8) (i : Nat) : Prop := bytesOf word <+: bytes.drop i

/-- The opening braces among some bytes less the closing ones. -/
def byteBalance (bytes : List UInt8) : Int := (bytes.count (byteOf '{') : Int) - bytes.count (byteOf '}')

/-- There is a loop keyword among some bytes. -/
def HoldsLoop (bytes : List UInt8) : Prop := bytesOf "for" <:+: bytes ∨ bytesOf "while" <:+: bytes

/-- A word that needs a depth and a loop stands at an offset, and one of them is missing in front of it. -/
def StraysAt (word : String) (depth : Int) (bytes : List UInt8) (i : Nat) : Prop :=
  StandsAt word bytes i ∧ (byteBalance (bytes.take i) < depth ∨ ¬ HoldsLoop (bytes.take i))

/-- A jump stands at an offset where it must not. -/
def Offends (breakDepth continueDepth : Int) (bytes : List UInt8) (i : Nat) : Prop :=
  StraysAt "break" breakDepth bytes i ∨ StraysAt "continue" continueDepth bytes i

variable {word : String} {depth breakDepth continueDepth : Int} {front rest : List Char} {s : LoopScan} {c : Char}

/-! ## Words in a text

Words are looked for among bytes.  In the encoding of a text no byte of a longer character is one of a single byte, so that a
word of such characters stands among the bytes only where it stands in the text. -/

/-- A word stands at an offset of the bytes just when it stands in the text behind a front of that length. -/
theorem standsAt_iff (hw : IsAscii word.toList) (hne : word.toList ≠ []) {text : String} {i : Nat} :
    StandsAt word (bytesOf text) i ↔ ∃ front back : String, text = front ++ word ++ back ∧ i = front.utf8ByteSize := by
  rw [StandsAt, bytesOf_eq_encoded word, bytesOf_eq_encoded text, prefix_drop_iff hw hne]
  constructor
  · rintro ⟨front, behind, htext, rfl, back, rfl⟩
    refine ⟨String.ofList front, String.ofList back, String.toList_inj.mp ?_, ?_⟩
    · simp [htext]
    · rw [← length_bytesOf, bytesOf_eq_encoded, String.toList_ofList]
  · rintro ⟨front, back, rfl, rfl⟩
    refine ⟨front.toList, word.toList ++ back.toList, by simp, ?_, List.prefix_append _ _⟩
    rw [← bytesOf_eq_encoded, length_bytesOf]

/-- An offset at which a word stands is not inside of a character. -/
theorem StandsAt.isValid (hw : IsAscii word.toList) (hne : word.toList ≠ []) {text : String} {i : Nat}
    (h : StandsAt word (bytesOf text) i) : String.Pos.Raw.IsValid text ⟨i⟩ := by
  obtain ⟨front, back, rfl, rfl⟩ := (standsAt_iff hw hne).mp h
  exact String.Pos.Raw.isValid_iff_exists_append.mpr ⟨front, word ++ back, String.append_assoc .., rfl⟩

/-- A word that stands at an offset is in the text. -/
theorem StandsAt.isInfix (hw : IsAscii word.toList) {text : String} {i : Nat} (h : StandsAt word (bytesOf text) i) :
    word.toList <:+: text.toList := by
  rw [StandsAt, bytesOf_eq_encoded, bytesOf_eq_encoded] at h
  exact (infix_encoded_iff hw).mp (h.isInfix.trans (List.drop_suffix i _).isInfix)

/-- Fronts of a text end in front of a character or behind it. -/
theorem length_encoded_front {back : List Char} {text : List Char} (h : front ++ c :: rest = text ++ back) :
    (encoded text).length ≤ (encoded front).length ∨ (encoded (front ++ [c])).length ≤ (encoded text).length := by
  -- one front is a part of the other
  rcases List.append_eq_append_iff.mp h with ⟨more, rfl, hmore⟩ | ⟨more, rfl, -⟩
  · cases more with
    | nil => exact .inl (by rw [List.append_nil])
    | cons d more =>
      obtain ⟨rfl, -⟩ := List.cons.inj hmore
      refine .inr ?_
      rw [List.append_cons front c more, encoded_append (front ++ [c]), List.length_append]
      exact Nat.le_add_right _ _
  · rw [encoded_append, List.length_append]
    exact .inl (Nat.le_add_right _ _)

/-- Nothing offends where no word stands. -/
theorem not_offends {bytes : List UInt8} {i : Nat}
    (h : ∀ word : String, IsAscii word.toList → word.toList ≠ [] → ¬ StandsAt word bytes i) :
    ¬ Offends breakDepth continueDepth bytes i := by
  rintro (hstray | hstray)
  · exact h "break" (by decide) (by decide) hstray.1
  · exact h "continue" (by decide) (by decide) hstray.1

/-- Nothing offends inside of a character. -/
theorem not_offends_inside {i : Nat} (hlow : (encoded front).length < i) (hhigh : i < (encoded (front ++ [c])).length) :
    ¬ Offends breakDepth continueDepth (encoded (front ++ c :: rest)) i := by
  refine not_offends fun word hw hne h => ?_
  rw [StandsAt, bytesOf_eq_encoded, prefix_drop_iff hw hne] at h
  obtain ⟨text, back, htext, rfl, -⟩ := h
  rcases length_encoded_front htext with hle | hle <;> omega

/-- Nothing offends behind the text. -/
theorem not_offends_behind {i : Nat} {bytes : List UInt8} (h : bytes.length ≤ i) :
    ¬ Offends breakDepth continueDepth bytes i := by
  refine not_offends fun word _ hne hstands => ?_
  rw [StandsAt, List.drop_eq_nil_of_le h, List.prefix_nil, bytesOf_eq_encoded, encoded, List.flatMap_eq_nil_iff] at hstands
  obtain ⟨c, w, hw⟩ := List.exists_cons_of_ne_nil hne
  exact String.utf8EncodeChar_ne_nil (hstands c (hw ▸ List.mem_cons_self))

/-! ## What the scan knows

Four things are carried along, and each is what can be said of the text so far in terms of the specification. -/

/-- Braces can be counted in the text or in its bytes. -/
theorem byteBalance_encoded (cs : List Char) : byteBalance (encoded cs) = balance cs := by
  rw [byteBalance, count_encoded (by decide), count_encoded (by decide), balance]

/-- A loop keyword is in the text if it is in its bytes. -/
theorem holdsLoop_encoded {cs : List Char} :
    HoldsLoop (encoded cs) ↔ "for".toList <:+: cs ∨ "while".toList <:+: cs := by
  rw [HoldsLoop, bytesOf_eq_encoded, bytesOf_eq_encoded, infix_encoded_iff (by decide), infix_encoded_iff (by decide)]

/-- What the scan knows is true of the text in front of it. -/
structure LoopScan.Describes (s : LoopScan) (front : List Char) : Prop where
  /-- The offset is the length in bytes. -/
  length : s.offset = (encoded front).length
  /-- The balance is that of the braces. -/
  braces : s.balance = SeedCorpus.balance front
  /-- The characters are those of the text, from its end. -/
  reversed : s.before = front.reverse
  /-- A loop keyword was seen if there is one. -/
  loop : s.loopSeen = true ↔ HoldsLoop (encoded front)

/-- In front of the text nothing is known. -/
theorem LoopScan.describes_nil : LoopScan.Describes {} [] where
  length := rfl
  braces := rfl
  reversed := rfl
  loop := by
    rw [holdsLoop_encoded]
    decide

/-- A loop keyword is in a longer text if it ends there or was in the text before. -/
theorem holdsLoop_concat : HoldsLoop (encoded (front ++ [c])) ↔
    HoldsLoop (encoded front) ∨ endsInLoopKeyword (c :: front.reverse) = true := by
  have hends : endsInLoopKeyword (c :: front.reverse) = true ↔
      "for".toList <:+ front ++ [c] ∨ "while".toList <:+ front ++ [c] := by
    rw [endsInLoopKeyword, Bool.or_eq_true, List.isPrefixOf_iff_prefix, List.isPrefixOf_iff_prefix,
      ← List.reverse_concat, ← List.reverse_prefix, ← List.reverse_prefix]
    exact Iff.rfl
  rw [holdsLoop_encoded, holdsLoop_encoded, List.infix_concat_iff, List.infix_concat_iff, hends]
  tauto

/-- One more character, and the scan knows what there is to know of the text with it. -/
theorem LoopScan.Describes.step (h : s.Describes front) (c : Char) : (s.step c).Describes (front ++ [c]) where
  length := by
    rw [encoded_append, List.length_append, ← h.length]
    simp [LoopScan.step, encoded, String.length_utf8EncodeChar]
  braces := by
    rw [balance_append, ← h.braces, LoopScan.step]
    -- a brace counts, and nothing else does
    by_cases hopen : c = '{'
    · subst hopen
      rfl
    · by_cases hclose : c = '}'
      · subst hclose
        rfl
      · simp [SeedCorpus.balance, hopen, hclose]
  reversed := by
    rw [List.reverse_concat, ← h.reversed]
    rfl
  loop := by
    rw [holdsLoop_concat, ← h.loop, ← h.reversed, ← Bool.or_eq_true]
    exact Iff.rfl

/-- The scan does not allow a jump if it is one that is missing something. -/
theorem LoopScan.Describes.allows_eq_false_iff (h : s.Describes front) (depth : Int) :
    s.allows depth = false ↔ byteBalance (encoded front) < depth ∨ ¬ HoldsLoop (encoded front) := by
  rw [LoopScan.allows, Bool.and_eq_false_iff, decide_eq_false_iff_not, Int.not_le, h.braces, byteBalance_encoded, ← h.loop,
    Bool.not_eq_true]

/-- What the scan tests is whether a word strays. -/
theorem LoopScan.Describes.strays_iff (h : s.Describes front) (hw : IsAscii word.toList) :
    StraysAt word depth (encoded (front ++ rest)) s.offset ↔
      (word.toList.isPrefixOf rest && !s.allows depth) = true := by
  rw [StraysAt, StandsAt, bytesOf_eq_encoded, encoded_append, h.length, List.drop_left, List.take_left,
    prefix_encoded_iff hw, ← h.allows_eq_false_iff, Bool.and_eq_true, List.isPrefixOf_iff_prefix, Bool.not_eq_true']

/-! ## The scan

The induction is on the text that is still to come.  What is known besides the invariant is that nothing offends up to here,
which is what makes an offence here the first. -/

/-- What a result says about a text: that nothing offends, or which jump is the first that does. -/
def Settles (breakDepth continueDepth : Int) (bytes : List UInt8) : Except Rejection Unit → Prop
  | .ok () => ∀ i, ¬ Offends breakDepth continueDepth bytes i
  | .error r => ∃ i, IsLeast {i | Offends breakDepth continueDepth bytes i} i ∧
      (StandsAt "break" bytes i ∧ r = .strayBreak i ∨ StandsAt "continue" bytes i ∧ r = .strayContinue i)

/-- If nothing offends in front of the scan, then its result is right. -/
theorem scanJumps_settles (hs : s.Describes front)
    (hquiet : ∀ i < s.offset, ¬ Offends breakDepth continueDepth (encoded (front ++ rest)) i) :
    Settles breakDepth continueDepth (encoded (front ++ rest)) (scanJumps breakDepth continueDepth s rest) := by
  induction rest generalizing s front with
  | nil =>
    intro i
    rcases Nat.lt_or_ge i s.offset with hi | hi
    · exact hquiet i hi
    · refine not_offends_behind ?_
      rwa [List.append_nil, ← hs.length]
  | cons c rest ih =>
    -- an offence here would be the first
    have hleast : Offends breakDepth continueDepth (encoded (front ++ c :: rest)) s.offset →
        IsLeast {i | Offends breakDepth continueDepth (encoded (front ++ c :: rest)) i} s.offset :=
      fun h => ⟨h, fun i hi => Nat.le_of_not_lt fun hlt => hquiet i hlt hi⟩
    have hbreak : StraysAt "break" breakDepth (encoded (front ++ c :: rest)) s.offset ↔ _ := hs.strays_iff (by decide)
    have hcontinue : StraysAt "continue" continueDepth (encoded (front ++ c :: rest)) s.offset ↔ _ :=
      hs.strays_iff (by decide)
    rw [scanJumps]
    split
    case isTrue htest =>
      have hstray := hbreak.mpr htest
      exact ⟨s.offset, hleast (.inl hstray), .inl ⟨hstray.1, rfl⟩⟩
    case isFalse hno =>
      split
      case isTrue htest =>
        have hstray := hcontinue.mpr htest
        exact ⟨s.offset, hleast (.inr hstray), .inr ⟨hstray.1, rfl⟩⟩
      case isFalse hno' =>
        have hnext := hs.step c
        have hquiet' : ∀ i < (s.step c).offset, ¬ Offends breakDepth continueDepth (encoded (front ++ c :: rest)) i := by
          intro i hi
          -- in front of this character nothing offends, here no jump strays, and inside of it no word stands
          rcases Nat.lt_trichotomy i s.offset with hlt | rfl | hgt
          · exact hquiet i hlt
          · rintro (hstray | hstray)
            · exact hno (hbreak.mp hstray)
            · exact hno' (hcontinue.mp hstray)
          · exact not_offends_inside (hs.length ▸ hgt) (hnext.length ▸ hi)
        rw [List.append_cons front c rest] at hquiet' ⊢
        exact ih hnext hquiet'

/-- The two jumps do not stand at one offset. -/
theorem not_standsAt_both {bytes : List UInt8} {i : Nat} (hbreak : StandsAt "break" bytes i)
    (hcontinue : StandsAt "continue" bytes i) : False := by
  rw [StandsAt, bytesOf_eq_encoded] at hbreak hcontinue
  have hprefix : encoded "break".toList <+: encoded "continue".toList :=
    List.prefix_of_prefix_length_le hbreak hcontinue (by decide)
  exact absurd ((prefix_encoded_iff (by decide)).mp hprefix) (by decide)

/-- Only one result is right. -/
theorem Settles.unique {bytes : List UInt8} {r r' : Except Rejection Unit} (h : Settles breakDepth continueDepth bytes r)
    (h' : Settles breakDepth continueDepth bytes r') : r = r' := by
  match r, r' with
  | .ok (), .ok () => rfl
  | .ok (), .error _ =>
    obtain ⟨i, hi, -⟩ := h'
    exact absurd hi.1 (h i)
  | .error _, .ok () =>
    obtain ⟨i, hi, -⟩ := h
    exact absurd hi.1 (h' i)
  | .error _, .error _ =>
    obtain ⟨i, hi, hjump⟩ := h
    obtain ⟨i', hi', hjump'⟩ := h'
    -- the first offence is at one offset, and one of the jumps stands there
    obtain rfl := hi.unique hi'
    rcases hjump with ⟨hstands, rfl⟩ | ⟨hstands, rfl⟩ <;> rcases hjump' with ⟨hstands', rfl⟩ | ⟨hstands', rfl⟩
    · rfl
    · exact (not_standsAt_both hstands hstands').elim
    · exact (not_standsAt_both hstands' hstands).elim
    · rfl

/-! ## The gate

As one result is right and the gate gives a right one, each of its results can be told from the text. -/

/-- The result of the gate is right. -/
theorem checkLoopScoping_settles (text : String) (breakDepth continueDepth : Int) :
    Settles breakDepth continueDepth (bytesOf text) (checkLoopScoping text breakDepth continueDepth) := by
  rw [bytesOf_eq_encoded]
  exact scanJumps_settles LoopScan.describes_nil fun i hi => absurd hi (Nat.not_lt_zero i)

/-- The gate gives a result if and only if it is right. -/
theorem checkLoopScoping_eq_iff {text : String} {r : Except Rejection Unit} :
    checkLoopScoping text breakDepth continueDepth = r ↔ Settles breakDepth continueDepth (bytesOf text) r := by
  have h := checkLoopScoping_settles text breakDepth continueDepth
  exact ⟨fun he => he ▸ h, fun h' => h.unique h'⟩

/-- A text passes if it does not hold the words that the gate takes for jumps. -/
theorem checkLoopScoping_of_no_jump {text : String} (hbreak : ¬ "break".toList <:+: text.toList)
    (hcontinue : ¬ "continue".toList <:+: text.toList) (breakDepth continueDepth : Int) :
    checkLoopScoping text breakDepth continueDepth = .ok () := by
  refine checkLoopScoping_eq_iff.mpr fun i => ?_
  rintro (h | h)
  · exact hbreak (h.1.isInfix (by decide))
  · exact hcontinue (h.1.isInfix (by decide))

/-- What the gate looks for. -/
def scopingWords : List String := ["break", "continue", "for", "while", "\x7b", "\x7d"]

/-- **The gate refuses the first jump that must not stand where it stands, and nothing else.**  It lets a text through just
when no offset in bytes is an offence.  Otherwise it names the jump at the smallest such offset and that offset, which is not
inside of a character.  What it looks for stands at an offset of the bytes just when it stands in the text behind as many
bytes, so that longer characters neither hide a word nor make one. -/
theorem checkLoopScoping_iff (text : String) (breakDepth continueDepth : Int) :
    (checkLoopScoping text breakDepth continueDepth = .ok () ↔
      ∀ i, ¬ Offends breakDepth continueDepth (bytesOf text) i) ∧
    (∀ i, checkLoopScoping text breakDepth continueDepth = .error (.strayBreak i) ↔
      IsLeast {i | Offends breakDepth continueDepth (bytesOf text) i} i ∧ StandsAt "break" (bytesOf text) i) ∧
    (∀ i, checkLoopScoping text breakDepth continueDepth = .error (.strayContinue i) ↔
      IsLeast {i | Offends breakDepth continueDepth (bytesOf text) i} i ∧ StandsAt "continue" (bytesOf text) i) ∧
    (checkLoopScoping text breakDepth continueDepth = .ok () ∨ ∃ i, String.Pos.Raw.IsValid text ⟨i⟩ ∧
      (checkLoopScoping text breakDepth continueDepth = .error (.strayBreak i) ∨
        checkLoopScoping text breakDepth continueDepth = .error (.strayContinue i))) ∧
    ∀ word ∈ scopingWords, ∀ i, StandsAt word (bytesOf text) i ↔
      ∃ front back : String, text = front ++ word ++ back ∧ i = front.utf8ByteSize := by
  -- the first three parts are `Settles` for the three kinds of results; for the fourth, a gate that settles has some result
  refine ⟨checkLoopScoping_eq_iff, fun i => ?_, fun i => ?_, ?_, fun word hword i => ?_⟩
  · rw [checkLoopScoping_eq_iff]
    simp [Settles]
  · rw [checkLoopScoping_eq_iff]
    simp [Settles]
  · have hsettles := checkLoopScoping_settles text breakDepth continueDepth
    match hresult : checkLoopScoping text breakDepth continueDepth with
    | .ok () => exact .inl rfl
    | .error r =>
      rw [hresult] at hsettles
      obtain ⟨i, -, ⟨hstands, rfl⟩ | ⟨hstands, rfl⟩⟩ := hsettles
      · exact .inr ⟨i, hstands.isValid (by decide) (by decide), .inl rfl⟩
      · exact .inr ⟨i, hstands.isValid (by decide) (by decide), .inr rfl⟩
  · have hwords : ∀ word ∈ scopingWords, IsAscii word.toList ∧ word.toList ≠ [] := by decide
    exact standsAt_iff (hwords word hword).1 (hwords word hword).2

/-- One brace is too little for the jump, which stands behind eleven bytes and ten characters. -/
theorem shallowBreak_offends : IsLeast {i | Offends 2 1 (bytesOf "for (é) \x7b break") i} 11 ∧ "break" ∈ scopingWords ∧
    (StandsAt "break" (bytesOf "for (é) \x7b break") 11 ↔
      ∃ front back : String, "for (é) \x7b break" = front ++ "break" ++ back ∧ 11 = front.utf8ByteSize) := by
  obtain ⟨-, hbreak, -, -, hwords⟩ := checkLoopScoping_iff "for (é) \x7b break" 2 1
  have hlisted : "break" ∈ scopingWords := by decide
  exact ⟨((hbreak 11).mp (by decide)).1, hlisted, hwords "break" hlisted 11⟩

end SeedCorpus
