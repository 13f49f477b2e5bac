/-
  Words in the bytes of a text.

  In UTF-8 a character below 128 is one byte, and no byte of any other character is below 128.  So the byte of such a
  character is found in no other one (`byteOf_mem_utf8EncodeChar`), and whatever is made of such characters is found among the
  bytes of a text just where it stands in the text: words (`prefix_drop_iff`, `infix_encoded_iff`) as well as the number of
  times that a character comes (`count_encoded`).  Only the offsets differ, where longer characters stand in front.
-/
namespace SeedCorpus

/-- The bytes of a text in UTF-8. -/
def bytesOf (s : String) : List UInt8 := s.toUTF8.data.toList

theorem bytesOf_eq_flatMap (s : String) : bytesOf s = s.toList.flatMap String.utf8EncodeChar := by
  rw [bytesOf, String.toUTF8_eq_toByteArray, ← String.utf8Encode_toList, List.utf8Encode, List.data_toByteArray]

/-! ## Characters of one byte

Which bytes a character has depends on how great it is; what matters here is only whether it is below 128. -/

/-- The bytes of characters in UTF-8. -/
def encoded (cs : List Char) : List UInt8 := cs.flatMap String.utf8EncodeChar

/-- The byte of a character that has only one. -/
def byteOf (c : Char) : UInt8 := UInt8.ofNat c.toNat

theorem encoded_cons (c : Char) (cs : List Char) : encoded (c :: cs) = String.utf8EncodeChar c ++ encoded cs :=
  List.flatMap_cons

theorem encoded_append (cs ds : List Char) : encoded (cs ++ ds) = encoded cs ++ encoded ds := List.flatMap_append

variable {c d : Char} {w cs : List Char} {i : Nat}

/-- A character below 128 is one byte. -/
theorem utf8EncodeChar_of_lt (h : c.toNat < 128) : String.utf8EncodeChar c = [byteOf c] := by
  have hle : c.val.toNat ≤ 127 := Nat.le_of_lt_succ h
  simp only [String.utf8EncodeChar, if_pos hle]
  rfl

/-- No byte of a longer character is below 128. -/
theorem le_of_mem_utf8EncodeChar (h : 128 ≤ c.toNat) {b : UInt8} (hb : b ∈ String.utf8EncodeChar c) : 128 ≤ b.toNat := by
  have hlong : ¬ c.val.toNat ≤ 127 := Nat.not_le.mpr h
  simp only [String.utf8EncodeChar, if_neg hlong] at hb
  split at hb
  · simp only [List.mem_cons, List.not_mem_nil, or_false] at hb
    rcases hb with rfl | rfl <;> rw [UInt8.toNat_ofNat'] <;> omega
  · split at hb
    · simp only [List.mem_cons, List.not_mem_nil, or_false] at hb
      rcases hb with rfl | rfl | rfl <;> rw [UInt8.toNat_ofNat'] <;> omega
    · simp only [List.mem_cons, List.not_mem_nil, or_false] at hb
      rcases hb with rfl | rfl | rfl | rfl <;> rw [UInt8.toNat_ofNat'] <;> omega

/-- The byte of a character below 128 is a byte of no other character. -/
theorem byteOf_mem_utf8EncodeChar (h : c.toNat < 128) : byteOf c ∈ String.utf8EncodeChar d ↔ d = c := by
  have hbyte : (byteOf c).toNat = c.toNat := by rw [byteOf, UInt8.toNat_ofNat', Nat.mod_eq_of_lt (by omega)]
  constructor
  · intro hm
    -- another character below 128 has another byte, and a longer one has none that is so small
    by_cases hd : d.toNat < 128
    · rw [utf8EncodeChar_of_lt hd, List.mem_singleton] at hm
      have hbyte' : (byteOf d).toNat = d.toNat := by rw [byteOf, UInt8.toNat_ofNat', Nat.mod_eq_of_lt (by omega)]
      refine Char.toNat_inj.mp ?_
      rw [← hbyte', ← hm, hbyte]
    · have hle := le_of_mem_utf8EncodeChar (Nat.le_of_not_lt hd) hm
      omega
  · rintro rfl
    rw [utf8EncodeChar_of_lt h]
    exact List.mem_singleton_self _

/-! ## Words of such characters

A word is looked for among the bytes of a text of any characters. -/

/-- All characters of a word are below 128. -/
def IsAscii (w : List Char) : Prop := ∀ c ∈ w, c.toNat < 128

-- Characters are finitely many, and an instance that tries all of them would be found as well.
instance (w : List Char) : Decidable (IsAscii w) := List.decidableBAll (fun c : Char => c.toNat < 128) w

theorem encoded_cons_of_lt (h : c.toNat < 128) (cs : List Char) : encoded (c :: cs) = byteOf c :: encoded cs := by
  rw [encoded_cons, utf8EncodeChar_of_lt h, List.singleton_append]

/-- The bytes of a text begin with those of a word just when the text begins with the word. -/
theorem prefix_encoded_iff (hw : IsAscii w) : encoded w <+: encoded cs ↔ w <+: cs := by
  induction w generalizing cs with
  | nil => exact iff_of_true List.nil_prefix List.nil_prefix
  | cons c w ih =>
    have hc := hw c List.mem_cons_self
    rw [encoded_cons_of_lt hc]
    cases cs with
    | nil => exact iff_of_false (fun h => nomatch List.prefix_nil.mp h) fun h => nomatch List.prefix_nil.mp h
    | cons d cs =>
      rw [List.cons_prefix_cons]
      -- the text begins with the character, or its first byte is another one
      by_cases hd : d = c
      · subst hd
        rw [encoded_cons_of_lt hc, List.cons_prefix_cons, ih fun e he => hw e (List.mem_cons_of_mem _ he)]
        exact and_congr_left' (iff_of_true rfl rfl)
      · refine iff_of_false (fun h => hd ?_) fun h => hd h.1.symm
        obtain ⟨b, more, hb⟩ := List.exists_cons_of_ne_nil (String.utf8EncodeChar_ne_nil (c := d))
        rw [encoded_cons, hb, List.cons_append, List.cons_prefix_cons] at h
        refine (byteOf_mem_utf8EncodeChar hc).mp ?_
        rw [hb, h.1]
        exact List.mem_cons_self

/-- A word stands at an offset of the bytes of a text just when it stands in the text behind as many bytes. -/
theorem prefix_drop_iff (hw : IsAscii w) (hne : w ≠ []) : encoded w <+: (encoded cs).drop i ↔
    ∃ front back, cs = front ++ back ∧ i = (encoded front).length ∧ w <+: back := by
  constructor
  · intro h
    induction cs generalizing i with
    | nil =>
      obtain ⟨c, w', rfl⟩ := List.exists_cons_of_ne_nil hne
      rw [encoded_cons_of_lt (hw c List.mem_cons_self)] at h
      simp [encoded] at h
    | cons d cs ih =>
      by_cases hi : i < (String.utf8EncodeChar d).length
      · -- the word begins with a byte of the first character, which then is the first of the word and has no other byte
        obtain ⟨c, w', rfl⟩ := List.exists_cons_of_ne_nil hne
        have hc := hw c List.mem_cons_self
        have hbyte : (String.utf8EncodeChar d)[i] = byteOf c := by
          rw [encoded_cons_of_lt hc, encoded_cons, List.drop_append_of_le_length (Nat.le_of_lt hi),
            List.drop_eq_getElem_cons hi, List.cons_append, List.cons_prefix_cons] at h
          exact h.1.symm
        obtain rfl := (byteOf_mem_utf8EncodeChar hc).mp (hbyte ▸ List.getElem_mem hi)
        rw [utf8EncodeChar_of_lt hc, List.length_singleton] at hi
        obtain rfl : i = 0 := by omega
        exact ⟨[], d :: cs, rfl, rfl, (prefix_encoded_iff hw).mp h⟩
      · have hi' := Nat.le_of_not_lt hi
        rw [encoded_cons, List.drop_append, List.drop_eq_nil_of_le hi', List.nil_append] at h
        obtain ⟨front, back, rfl, hlength, hback⟩ := ih h
        refine ⟨d :: front, back, rfl, ?_, hback⟩
        rw [encoded_cons, List.length_append]
        omega
  · rintro ⟨front, back, rfl, rfl, hback⟩
    rw [encoded_append, List.drop_left]
    exact (prefix_encoded_iff hw).mpr hback

/-- The bytes of a text hold those of a word just when the text holds the word. -/
theorem infix_encoded_iff (hw : IsAscii w) : encoded w <:+: encoded cs ↔ w <:+: cs := by
  by_cases hne : w = []
  · subst hne
    exact iff_of_true (List.nil_infix) (List.nil_infix)
  constructor
  · rintro ⟨before, behind, h⟩
    -- where the bytes of the word stand is an offset
    have hdrop : encoded w <+: (encoded cs).drop before.length := by
      rw [← h, List.append_assoc, List.drop_left]
      exact List.prefix_append _ _
    obtain ⟨front, back, rfl, -, hback⟩ := (prefix_drop_iff hw hne).mp hdrop
    exact hback.isInfix.trans (List.suffix_append front back).isInfix
  · rintro ⟨front, back, rfl⟩
    rw [encoded_append, encoded_append]
    exact List.infix_append _ _ _

/-- A character below 128 comes as often in a text as its byte in the bytes of the text. -/
theorem count_encoded (h : c.toNat < 128) : (encoded cs).count (byteOf c) = cs.count c := by
  induction cs with
  | nil => rfl
  | cons d cs ih =>
    rw [encoded_cons, List.count_append, ih, List.count_cons]
    by_cases hd : d = c
    · subst hd
      simp [utf8EncodeChar_of_lt h, Nat.add_comm]
    · have hzero := List.count_eq_zero.mpr fun hm => hd ((byteOf_mem_utf8EncodeChar h).mp hm)
      simp [hzero, hd]

/-! ## Texts

What is said of lists of characters, said of texts. -/

theorem bytesOf_eq_encoded (s : String) : bytesOf s = encoded s.toList := bytesOf_eq_flatMap s

/-- A text has as many bytes as its size says. -/
theorem length_bytesOf (s : String) : (bytesOf s).length = s.utf8ByteSize := by
  rw [bytesOf, Array.length_toList, ByteArray.size_data]
  rfl

/-- Bytes are those of the text that is read from them. -/
theorem fromUTF8?_eq_some_iff {bytes : ByteArray} {text : String} :
    String.fromUTF8? bytes = some text ↔ bytes = text.toUTF8 := by
  unfold String.fromUTF8?
  constructor
  · intro h
    split at h
    · cases h
      rfl
    · cases h
  · rintro rfl
    have hvalid : text.toUTF8.IsValidUTF8 := text.isValidUTF8
    rw [dif_pos hvalid]
    rfl

end SeedCorpus
