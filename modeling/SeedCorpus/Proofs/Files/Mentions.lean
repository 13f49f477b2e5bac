/-
  Reads that are found in the text of a program.

  A read of a number is looked for as a piece of the text (`MentionsRead`), as somebody would who searches the source for
  it.  That this finds the calls and nothing else has to be shown, as the piece could come about in another way.

  1. **Lines.**  The piece holds no line end, so it lies within a line (`infix_iff_line`).

  2. **Silent lines.**  It begins with letters, an underscore and a quotation mark, and no other line has all of them
     (`Silent`): the calls and headers have no quotation mark, the trace line has no underscore, and the lines that store
     have no `d`.

  3. **Lines that read.**  The line of a read has two quotation marks, and so has the piece, so it is the same number that
     stands between them (`mentionsRead_readLine`).

  4. **Programs.**  All lines of a program are of one of these two kinds (`readsOnly_sections`), and every read has a line
     (`exists_readLine`), so that the text mentions exactly what is read (`mentionsRead_source`).
-/
import SeedCorpus.Proofs.Rendering.Layout

namespace SeedCorpus

/-! ## Pieces of lines

Lists of characters that are cut at one character.  A piece in which that character does not occur is cut nowhere. -/

section Pieces

variable {α : Type} {c : α} {piece a b : List α}

/-- A piece without `c` is no beginning of what begins with `c`, unless it is empty. -/
theorem eq_nil_of_prefix_cons (hc : c ∉ piece) (h : piece <+: c :: b) : piece = [] := by
  cases piece with
  | nil => rfl
  | cons d piece =>
    obtain ⟨rfl, -⟩ := List.cons_prefix_cons.mp h
    exact absurd List.mem_cons_self hc

/-- A piece without `c` lies on one side of every `c`. -/
theorem infix_append_cons (hc : c ∉ piece) : piece <:+: a ++ c :: b ↔ piece <:+: a ∨ piece <:+: b := by
  rw [List.infix_append_iff, List.infix_cons_iff]
  constructor
  · -- a piece that lies on both sides would have the character in its second half
    rintro (h | (h | h) | ⟨front, back, rfl, hfront, hback⟩)
    · exact Or.inl h
    · rw [eq_nil_of_prefix_cons hc h]
      exact Or.inl (List.nil_infix)
    · exact Or.inr h
    · have hnil := eq_nil_of_prefix_cons (fun hm => hc (List.mem_append_right front hm)) hback
      rw [hnil, List.append_nil]
      exact Or.inl hfront.isInfix
  · rintro (h | h)
    · exact Or.inl h
    · exact Or.inr (Or.inl (Or.inr h))

/-- A piece without the separator lies in one of the parts between separators. -/
theorem infix_intercalate (hc : c ∉ piece) : ∀ {parts : List (List α)}, parts ≠ [] →
    (piece <:+: [c].intercalate parts ↔ ∃ part ∈ parts, piece <:+: part)
  | [], h => absurd rfl h
  | [part], _ => by simp
  | part :: next :: parts, _ => by
    -- the induction is on the parts: the first one, or one of the others
    have ih := infix_intercalate hc (List.cons_ne_nil next parts)
    rw [List.intercalate_cons_cons, List.append_assoc, List.singleton_append, infix_append_cons hc, ih]
    simp

end Pieces

/-- A piece without a line end lies within a line. -/
theorem infix_iff_line {piece : List Char} (h : '\n' ∉ piece) (text : String) :
    piece <:+: text.toList ↔ ∃ l ∈ linesOf text, piece <:+: l.toList := by
  have hparts := infix_intercalate h (List.splitOn_ne_nil '\n' text.toList)
  rw [List.intercalate_splitOn] at hparts
  simp only [hparts, linesOf, List.mem_map]
  constructor
  · rintro ⟨part, hpart, hinfix⟩
    exact ⟨String.ofList part, ⟨part, hpart, rfl⟩, by rwa [String.toList_ofList]⟩
  · rintro ⟨l, ⟨part, hpart, rfl⟩, hinfix⟩
    exact ⟨part, hpart, by rwa [String.toList_ofList] at hinfix⟩

/-! ## Reads in lines

What a line lacks is followed through the pieces that it is made of. -/

/-- A piece between two quotation marks is found in a text with two quotation marks just when it stands between them. -/
theorem between_quotes {front inner back front' inner' back' : List Char} (hf : '\x22' ∉ front) (hi : '\x22' ∉ inner)
    (hb : '\x22' ∉ back) (hf' : '\x22' ∉ front') (hi' : '\x22' ∉ inner')
    (h : front' ++ '\x22' :: (inner' ++ '\x22' :: back') <:+: front ++ '\x22' :: (inner ++ '\x22' :: back)) :
    inner' = inner := by
  obtain ⟨before, after, heq⟩ := h
  -- all quotation marks of the text are those of the piece
  have hcount := congrArg (List.count '\x22') heq
  simp only [List.count_append, List.count_cons_self, List.count_eq_zero_of_not_mem hf, List.count_eq_zero_of_not_mem hi,
    List.count_eq_zero_of_not_mem hb, List.count_eq_zero_of_not_mem hf', List.count_eq_zero_of_not_mem hi'] at hcount
  have hbefore : '\x22' ∉ before := List.count_eq_zero.mp (by omega)
  have hfront : '\x22' ∉ before ++ front' := fun hm => (List.mem_append.mp hm).elim hbefore hf'
  have heq' : (before ++ front') ++ '\x22' :: (inner' ++ '\x22' :: (back' ++ after))
      = front ++ '\x22' :: (inner ++ '\x22' :: back) := by
    rw [← heq]
    simp
  -- what stands in front of the first mark is the same, and so is what stands in front of the second
  obtain ⟨-, hrest⟩ := append_cons_inj hfront hf heq'
  exact (append_cons_inj hi' hi hrest).1

/-- A character does not occur in a text. -/
def Lacks (c : Char) (s : String) : Prop := c ∉ s.toList

section Lacks

variable {c : Char} {s t : String}

instance (c : Char) (s : String) : Decidable (Lacks c s) := inferInstanceAs (Decidable (c ∉ s.toList))

/-- What two texts lack, both of them lack together. -/
theorem Lacks.append (hs : Lacks c s) (ht : Lacks c t) : Lacks c (s ++ t) := by
  rw [Lacks, String.toList_append, List.mem_append, not_or]
  exact ⟨hs, ht⟩

/-- A number lacks everything but digits. -/
theorem lacks_number (hc : c.isDigit = false) (n : Nat) : Lacks c (toString n) := fun hm => by
  rw [isDigit_of_mem_toString hm] at hc
  cases hc

/-- Indentation lacks everything but blanks. -/
theorem lacks_indentation (hc : c ≠ ' ') (depth : Nat) : Lacks c (Emitter.indentation depth) := by
  intro hm
  rw [Emitter.indentation, String.toList_ofList] at hm
  exact hc (List.eq_of_mem_replicate hm)

end Lacks

/-- The piece of text that reads the file of a number. -/
def readPiece (n : Nat) : String := "read_input(\x22" ++ toString n ++ "\x22)"

/-- A text holds a read of the file of a number. -/
def MentionsRead (text : String) (n : Nat) : Prop := (readPiece n).toList <:+: text.toList

/-- A line lacks one of the characters with which every read begins. -/
def Silent (s : String) : Prop := ∃ c ∈ "read_input(\x22".toList, Lacks c s

/-- A silent line holds no read. -/
theorem Silent.not_mentionsRead {s : String} (h : Silent s) (n : Nat) : ¬ MentionsRead s n := by
  intro hm
  obtain ⟨c, hc, hs⟩ := h
  refine hs (hm.subset ?_)
  rw [readPiece, String.toList_append, String.toList_append]
  exact List.mem_append_left _ (List.mem_append_left _ hc)

/-- A line without quotation marks is silent. -/
theorem Silent.unquoted {s : String} (h : Lacks '\x22' s) : Silent s := ⟨_, by decide, h⟩

/-- Indentation lets a line stay silent. -/
theorem Silent.printed {l : Line} (h : Silent l.2) (depth : Nat) : Silent (Line.printed depth l) := by
  obtain ⟨c, hc, hs⟩ := h
  refine ⟨c, hc, (lacks_indentation ?_ _).append hs⟩
  -- there is no blank at the beginning of a read
  rintro rfl
  exact absurd hc (by decide)

/-- The line of a read. -/
def readLine (place : Nat) : String := "sum += " ++ fileWording.value place ++ ";"

/-- The line of a read mentions the number that it reads, and no other. -/
theorem mentionsRead_readLine {depth k place n : Nat} :
    MentionsRead (Line.printed depth (k, readLine place)) n ↔ n = place := by
  -- the line and the piece have two quotation marks each, and the number stands between them
  have hline : (Line.printed depth (k, readLine place)).toList = (Emitter.indentation (depth + k)
      ++ "sum += read_input(").toList ++ '\x22' :: ((toString place).toList ++ '\x22' :: ");".toList) := by
    simp [Line.printed_eq, readLine, fileWording]
  have hpiece : ∀ m, (readPiece m).toList
      = "read_input(".toList ++ '\x22' :: ((toString m).toList ++ '\x22' :: ")".toList) := by
    simp [readPiece]
  have hfront : Lacks '\x22' (Emitter.indentation (depth + k) ++ "sum += read_input(") :=
    (lacks_indentation (by decide) _).append (by decide)
  constructor
  · intro h
    rw [MentionsRead, hpiece, hline] at h
    have hnumber := between_quotes hfront (lacks_number rfl place) (by decide) (by decide) (lacks_number rfl n) h
    exact toString_injective (String.toList_inj.mp hnumber)
  · rintro rfl
    rw [MentionsRead, hpiece, hline]
    exact ⟨(Emitter.indentation (depth + k) ++ "sum += ").toList, ";".toList, by simp⟩

/-! ## Reads in programs

Line by line, in the order in which a program is put together: moves, functions, `main`, and the helpers, whose lines are
fixed. -/

/-- Lines that are silent, but for those that read a place. -/
def ReadsOnly (reads : Nat → Prop) (ls : List Line) : Prop :=
  ∀ l ∈ ls, Silent l.2 ∨ ∃ place, reads place ∧ l.2 = readLine place

section ReadsOnly

variable {reads : Nat → Prop} {ls ms : List Line} {s : String}

theorem ReadsOnly.append (h : ReadsOnly reads ls) (h' : ReadsOnly reads ms) : ReadsOnly reads (ls ++ ms) := by
  intro l hl
  exact (List.mem_append.mp hl).elim (h l) (h' l)

/-- A block of lines behind a silent header. -/
theorem ReadsOnly.blockOf (hs : Silent s) (h : ReadsOnly reads ls) : ReadsOnly reads (blockOf s ls) := by
  intro l hl
  rcases List.mem_append.mp hl with hl | hl
  · rcases List.mem_cons.mp hl with rfl | hl
    · exact Or.inl hs
    · obtain ⟨m, hm, rfl⟩ := List.mem_map.mp hl
      exact h m hm
  · obtain rfl := List.mem_singleton.mp hl
    exact Or.inl (.unquoted (by decide))

theorem ReadsOnly.mono {more : Nat → Prop} (h : ReadsOnly reads ls) (hr : ∀ place, reads place → more place) :
    ReadsOnly more ls := by
  intro l hl
  exact (h l hl).imp id fun ⟨place, hp, he⟩ => ⟨place, hr place hp, he⟩

/-- A single silent line. -/
theorem readsOnly_silent (hs : Silent s) : ReadsOnly reads [(0, s)] := by
  intro l hl
  obtain rfl := List.mem_singleton.mp hl
  exact Or.inl hs

end ReadsOnly

/-- A call lacks what its parts lack. -/
theorem lacks_call (callee : Nat) {first : String} {c : Char} (hc : c.isDigit = false) (hn : Lacks c "test_")
    (ho : Lacks c "(") (he : Lacks c ")") (hf : Lacks c first) : Lacks c (fileWording.call callee first) :=
  (((hn.append (lacks_number hc callee)).append ho).append hf).append he

/-- A move reads what it reads. -/
theorem Move.readsOnly (m : Move) : ReadsOnly (· ∈ m.reads) (m.lines fileWording) := by
  have hcall : ∀ (front : String) (callee : Nat) (first : String), Lacks '\x22' front → Lacks '\x22' first →
      ReadsOnly (· ∈ m.reads) [(0, front ++ fileWording.call callee first ++ ";")] := fun front callee first hf hfirst =>
    readsOnly_silent (.unquoted ((hf.append (lacks_call callee rfl (by decide) (by decide) (by decide) hfirst)).append
      (by decide)))
  -- all but the read are silent: three of them have no quotation mark
  cases m with
  | guardedCall callee => exact .blockOf (.unquoted (by decide)) (hcall _ _ _ (by decide) (by decide))
  | countedLoop callee => exact .blockOf (.unquoted (by decide)) (hcall _ _ _ (by decide) (by decide))
  | conditionedLoop callee => exact .blockOf (.unquoted (by decide)) (hcall _ _ _ (by decide) (by decide))
  | read place =>
    intro l hl
    obtain rfl := List.mem_singleton.mp hl
    exact Or.inr ⟨place, List.mem_cons_self, rfl⟩
  | write place callee =>
    -- the line that stores has quotation marks, but it lacks the `d` of the reads
    have hc : Lacks 'd' (fileWording.call callee "(arg / 2)") :=
      lacks_call callee rfl (by decide) (by decide) (by decide) (by decide)
    have hfront : Lacks 'd' ("write_output(\x22out_" ++ toString place) := .append (by decide) (lacks_number rfl place)
    refine .blockOf (.unquoted (by decide)) (readsOnly_silent ⟨'d', by decide, ?_⟩)
    exact ((hfront.append (by decide)).append hc).append (by decide)

/-- A signature has no quotation mark. -/
theorem lacks_signature (k : Nat) : Lacks '\x22' (fileWording.signature k) := by
  have hname : Lacks '\x22' (testName k) := .append (by decide) (lacks_number rfl k)
  exact (((Lacks.append (by decide) hname).append (by decide)).append (by decide)).append (by decide)

/-- The trace line has quotation marks, but no underscore. -/
theorem silent_traceLine (k : Nat) : Silent (traceLine k "arg") := by
  have hfront : Lacks '_' ("printf(\x22func " ++ toString k ++ " " ++ "arg") :=
    ((Lacks.append (by decide) (lacks_number rfl k)).append (by decide)).append (by decide)
  exact ⟨'_', by decide, ((hfront.append (by decide)).append (by decide)).append (by decide)⟩

/-- A function reads what its moves read. -/
theorem readsOnly_definition (k : Nat) (moves : List Move) :
    ReadsOnly (· ∈ moves.flatMap Move.reads) (fileWording.definition k moves) := by
  -- the trace, two declarations, the moves, and the return
  refine .blockOf (.unquoted ((lacks_signature k).append (by decide))) (.append (.append ?_ ?_) ?_)
  · exact (readsOnly_silent (silent_traceLine k)).append ((readsOnly_silent (.unquoted (by decide))).append
      (readsOnly_silent (.unquoted (by decide))))
  · intro l hl
    obtain ⟨m, hm, hl⟩ := List.mem_flatMap.mp hl
    exact m.readsOnly.mono (fun place hp => List.mem_flatMap.mpr ⟨m, hm, hp⟩) l hl
  · exact readsOnly_silent (.unquoted (by decide))

/-- `main` reads nothing. -/
theorem readsOnly_main (values : List Nat) (starts : List (Nat × Nat)) {reads : Nat → Prop} :
    ReadsOnly reads (fileWording.main values starts) := by
  refine .blockOf (.unquoted (by decide)) fun l hl => Or.inl (.unquoted ?_)
  simp only [fileWording, List.map_nil, List.mem_append, List.mem_cons, List.mem_map, List.not_mem_nil,
    or_false] at hl
  -- the sum, the calls, and the return
  rcases hl with (rfl | ⟨st, -, rfl⟩) | rfl
  · decide
  · exact (Lacks.append (by decide) (lacks_call st.2 rfl (by decide) (by decide) (by decide)
      (lacks_number rfl st.1))).append (by decide)
  · decide

/-- The helpers read nothing by themselves. -/
theorem silent_helpers : ∀ ls ∈ fileWording.helpers, ∀ l ∈ ls, Silent l.2 := by
  -- the lines of the helpers do not depend on anything, so that it can be looked up in each of them
  have hlacking : fileWording.helpers.all fun ls => ls.all fun l =>
      "read_input(\x22".toList.any fun c => !l.2.toList.contains c := by decide +kernel
  intro ls hls l hl
  obtain ⟨c, hc, hnot⟩ := List.any_eq_true.mp (List.all_eq_true.mp (List.all_eq_true.mp hlacking ls hls) l hl)
  refine ⟨c, hc, fun hm => ?_⟩
  rw [List.contains_iff_mem.mpr hm] at hnot
  cases hnot

namespace Sketch

variable {s : Sketch} {size n : Nat}

/-- A program reads what its functions read. -/
theorem readsOnly_sections {ls : List Line} (hls : ls ∈ s.sections fileWording size) : ReadsOnly (· ∈ s.reads size) ls := by
  simp only [sections, prototypes, definitions, List.mem_append, List.mem_cons, List.mem_map, List.not_mem_nil,
    or_false] at hls
  -- section by section
  rcases hls with ((((rfl | rfl) | ⟨k, -, rfl⟩) | hls) | ⟨k, hk, rfl⟩) | rfl
  · exact readsOnly_silent (.unquoted (by decide))
  · exact readsOnly_silent (.unquoted (by decide))
  · exact readsOnly_silent (.unquoted ((lacks_signature k).append (by decide)))
  · exact fun l hl => Or.inl (silent_helpers ls hls l hl)
  · exact (readsOnly_definition k (s.moves k)).mono fun place hp => List.mem_flatMap.mpr ⟨k, hk, hp⟩
  · exact readsOnly_main s.values s.starts

/-- What a function reads stands in a line of its own. -/
theorem exists_readLine {place : Nat} (hp : place ∈ s.reads size) :
    ∃ ls ∈ s.sections fileWording size, ∃ l ∈ ls, l.2 = readLine place := by
  obtain ⟨k, hk, hm⟩ := mem_reads.mp hp
  refine ⟨fileWording.definition k (s.moves k), ?_, (1, readLine place), ?_, rfl⟩
  · refine List.mem_append_left _ (List.mem_append_right _ ?_)
    exact List.mem_map_of_mem (List.mem_range.mpr hk)
  · refine List.mem_append_left _ (List.mem_cons_of_mem _ (List.mem_map.mpr ⟨(0, readLine place), ?_, rfl⟩))
    refine List.mem_append_left _ (List.mem_append_right _ ?_)
    exact List.mem_flatMap.mpr ⟨.read place, hm, List.mem_cons_self⟩

/-- **The text of a program mentions exactly the reads of its functions.** -/
theorem mentionsRead_source :
    MentionsRead (joinSections ((s.sections fileWording size).map textOf)) n ↔ n ∈ s.reads size := by
  have hline : Lacks '\n' (readPiece n) := (Lacks.append (by decide) (lacks_number rfl n)).append (by decide)
  rw [MentionsRead, infix_iff_line hline, linesOf_source fileWording_sound]
  constructor
  · -- a line with a read is not empty, and it is that of a read
    rintro ⟨l, hl, hmention⟩
    have hempty : ¬ MentionsRead "" n := (Silent.unquoted (by decide)).not_mentionsRead n
    rcases List.mem_append.mp hl with hl | hl
    · rcases mem_intercalate hl with rfl | ⟨texts, htexts, hl⟩
      · exact absurd hmention hempty
      · obtain ⟨ls, hls, rfl⟩ := List.mem_map.mp htexts
        obtain ⟨m, hm, rfl⟩ := List.mem_map.mp hl
        rcases readsOnly_sections hls m hm with hsilent | ⟨place, hp, heq⟩
        · exact absurd hmention ((hsilent.printed 0).not_mentionsRead n)
        · obtain ⟨k, text⟩ := m
          obtain rfl : text = readLine place := heq
          rw [mentionsRead_readLine.mp hmention]
          exact hp
    · obtain rfl := List.mem_singleton.mp hl
      exact absurd hmention hempty
  · intro hn
    obtain ⟨ls, hls, ⟨k, text⟩, hm, rfl⟩ := exists_readLine hn
    refine ⟨Line.printed 0 (k, readLine n), List.mem_append_left _ ?_, mentionsRead_readLine.mpr rfl⟩
    exact mem_intercalate_of_mem (List.mem_map_of_mem hm) (List.mem_map_of_mem hls)

end Sketch

end SeedCorpus
