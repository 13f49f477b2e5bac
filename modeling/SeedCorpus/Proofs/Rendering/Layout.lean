/-
  How generated programs are laid out.

  The lines of a program are known from its sketch, each with its depth.  In the text there are only characters, so what can
  be told from the text alone has to be shown of the lines.

  1. **Sound lines.**  The lines of a sketch are sound (`Line.Sound`): clean, not empty, and not indented by themselves.
     This goes from the wording of a program through its moves and functions to all its sections (`Sketch.sections_sound`).

  2. **Sections.**  So the sections of a program can be read off its text: they are what stands between empty lines
     (`linesOf_source`).

  3. **First levels.**  In a function the first level can be told from deeper ones by its two blanks (`topLevel_blockOf`).
     A move has one line there, whatever it is (`Move.filter_isTop`), and that is why the statements of a function can be
     counted in its text.

  4. **First lines.**  Generated functions and `main` are counted by the lines that open them, which stand at the margin and
     nowhere else (`Sketch.filter_texts`).
-/
import SeedCorpus.Proofs.Rendering.Programs
import SeedCorpus.Proofs.Rendering.Texts

namespace SeedCorpus

open SeedCorpus.Random (Source)

/-! ## Sound lines

A wording says what differs between the two kinds of programs.  It is asked for as much as its lines need, and both wordings
are looked up. -/

/-- A text begins with a character that is neither a blank nor a closing brace. -/
def Opens (s : String) : Prop := ∃ c rest, s.toList = c :: rest ∧ c ≠ ' ' ∧ c ≠ '\x7d'

/-- What opens a text opens it with more behind. -/
theorem Opens.append {s : String} (h : Opens s) (t : String) : Opens (s ++ t) := by
  obtain ⟨c, rest, hs, hblank, hbrace⟩ := h
  exact ⟨c, rest ++ t.toList, by rw [String.toList_append, hs]; rfl, hblank, hbrace⟩

theorem Opens.ne_brace {s : String} (h : Opens s) : s ≠ "\x7d" := by
  rintro rfl
  obtain ⟨c, rest, hs, -, hbrace⟩ := h
  exact hbrace (List.cons.inj hs).1.symm

/-- A line is clean, not empty and not indented by itself. -/
structure Line.Sound (l : Line) : Prop where
  /-- It is clean. -/
  clean : Clean l.2
  /-- It begins with a character that is no blank. -/
  begins : Opens l.2 ∨ l.2 = "\x7d"

/-- The wording of a program keeps its lines sound. -/
structure Wording.Sound (w : Wording) : Prop where
  /-- The parameters. -/
  params : Clean w.params
  /-- The arguments of a call. -/
  args : ∀ first, Clean first → Clean (w.args first)
  /-- The variable of the condition. -/
  guard : Clean w.guard
  /-- A value that is read. -/
  value : ∀ place, Clean (w.value place)
  /-- A value that is stored. -/
  store : ∀ place call, Clean call → Clean (w.store place call) ∧ Opens (w.store place call)
  /-- The lines of `main` in front of the calls. -/
  prelude : ∀ values, ∀ s ∈ w.prelude values, Clean s ∧ Opens s
  /-- The functions of fixed content. -/
  helpers : ∀ h ∈ w.helpers, h ≠ [] ∧ ∀ l ∈ h, Line.Sound l

/-- Whether a text is clean. -/
def isClean (s : String) : Bool := isQuiet s.toList && !s.toList.contains '\n'

/-- Whether a text begins with a character that is neither a blank nor a closing brace. -/
def isOpening (s : String) : Bool := s.toList.head?.any fun c => c ≠ ' ' && c ≠ '\x7d'

/-- Whether a fixed text is clean can be computed. -/
theorem Clean.literal {s : String} (h : isClean s) : Clean s := by
  rw [isClean, Bool.and_eq_true, Bool.not_eq_true', List.contains_eq_mem, decide_eq_false_iff_not] at h
  exact ⟨h.1, h.2⟩

/-- A clean text stays clean between two fixed ones. -/
theorem Clean.between {front s back : String} (hs : Clean s) (h : isClean front && isClean back) :
    Clean (front ++ s ++ back) := by
  rw [Bool.and_eq_true] at h
  exact ((Clean.literal h.1).append hs).append (Clean.literal h.2)

/-- And so can what it begins with. -/
theorem Opens.literal {s : String} (h : isOpening s) : Opens s := by
  unfold Opens
  rw [isOpening] at h
  cases hs : s.toList with
  | nil => rw [hs] at h; cases h
  | cons c rest =>
    rw [hs] at h
    have hc : c ≠ ' ' ∧ c ≠ '\x7d' := by simpa using h
    exact ⟨c, rest, rfl, hc⟩

/-- Numbers with commas between them are clean. -/
theorem Clean.numbers (values : List Nat) : Clean (", ".intercalate (values.map toString)) := by
  refine intercalate_induction (Clean.literal (by rfl)) Clean.append (Clean.literal (by rfl)) fun t ht => ?_
  obtain ⟨n, -, rfl⟩ := List.mem_map.mp ht
  exact Clean.number n

theorem arrayWording_sound : arrayWording.Sound where
  params := Clean.literal (by rfl)
  args first h := h.append (Clean.literal (by rfl))
  guard := Clean.literal (by rfl)
  value place := (Clean.number place).between (by rfl)
  store place call h :=
    ⟨(((Clean.number place).between (by rfl)).append h).append (Clean.literal (by rfl)),
      ((((Opens.literal (by rfl)).append _).append _).append _).append _⟩
  prelude values s hs := by
    obtain rfl := List.mem_singleton.mp hs
    exact ⟨(Clean.numbers values).between (by rfl), ((Opens.literal (by rfl)).append _).append _⟩
  helpers := nofun

theorem fileWording_sound : fileWording.Sound where
  params := Clean.literal (by rfl)
  args first h := h
  guard := Clean.literal (by rfl)
  value place := (Clean.number place).between (by rfl)
  store place call h :=
    ⟨(((Clean.number place).between (by rfl)).append h).append (Clean.literal (by rfl)),
      ((((Opens.literal (by rfl)).append _).append _).append _).append _⟩
  prelude values s hs := by cases hs
  helpers h hh := by
    -- the helpers are fixed texts, so their lines are looked up
    have hsound : ∀ ls : List Line, (ls.all fun l => isClean l.2 && (isOpening l.2 || l.2 == "\x7d")) →
        ∀ l ∈ ls, Line.Sound l := by
      intro ls hls l hl
      have hl' := List.all_eq_true.mp hls l hl
      rw [Bool.and_eq_true, Bool.or_eq_true] at hl'
      exact ⟨Clean.literal hl'.1, hl'.2.imp Opens.literal eq_of_beq⟩
    simp only [fileWording, List.mem_cons, List.not_mem_nil, or_false] at hh
    rcases hh with rfl | rfl
    · exact ⟨List.cons_ne_nil _ _, hsound _ rfl⟩
    · exact ⟨List.cons_ne_nil _ _, hsound _ rfl⟩

theorem SynthesisConfig.wording_sound (config : SynthesisConfig) : config.wording.Sound := by
  unfold SynthesisConfig.wording
  split
  · exact arrayWording_sound
  · exact fileWording_sound

/-! ## The lines of a program are sound

One lemma for each function that makes lines, in the order in which they call each other. -/

/-- A block of sound lines behind a header. -/
theorem sound_blockOf {first : String} {body : List Line} (hc : Clean first) (ho : Opens first)
    (hb : ∀ l ∈ body, Line.Sound l) : ∀ l ∈ blockOf first body, Line.Sound l := by
  intro l hl
  rcases List.mem_append.mp hl with hl | hl
  · rcases List.mem_cons.mp hl with rfl | hl
    · exact ⟨hc, Or.inl ho⟩
    · obtain ⟨m, hm, rfl⟩ := List.mem_map.mp hl
      exact ⟨(hb m hm).clean, (hb m hm).begins⟩
  · obtain rfl := List.mem_singleton.mp hl
    exact ⟨Clean.literal (by rfl), Or.inr rfl⟩

variable {w : Wording} {size places : Nat}

theorem testName_clean (number : Nat) : Clean (testName number) := (Clean.literal (by rfl)).append (Clean.number number)

theorem Wording.Sound.call (hw : w.Sound) (callee : Nat) {first : String} (hf : Clean first) :
    Clean (w.call callee first) :=
  (((testName_clean callee).append (Clean.literal (by rfl))).append (hw.args first hf)).append (Clean.literal (by rfl))

/-- The lines of a move are sound. -/
theorem Move.lines_sound (hw : w.Sound) (m : Move) : ∀ l ∈ m.lines w, Line.Sound l := by
  have hline : ∀ (front : String) {s : String}, Clean front → Opens front → Clean s →
      ∀ l ∈ [((0, front ++ s ++ ";") : Line)], Line.Sound l := by
    intro front s hfront hopens hs l hl
    obtain rfl := List.mem_singleton.mp hl
    exact ⟨(hfront.append hs).append (Clean.literal (by rfl)), Or.inl ((hopens.append _).append _)⟩
  -- three blocks with a call, the line that reads, and a block that stores
  cases m with
  | guardedCall callee =>
    exact sound_blockOf (Clean.literal (by rfl)) (Opens.literal (by rfl))
      (hline _ (Clean.literal (by rfl)) (Opens.literal (by rfl)) (hw.call callee (Clean.literal (by rfl))))
  | countedLoop callee =>
    exact sound_blockOf (Clean.literal (by rfl)) (Opens.literal (by rfl))
      (hline _ (Clean.literal (by rfl)) (Opens.literal (by rfl)) (hw.call callee (Clean.literal (by rfl))))
  | conditionedLoop callee =>
    exact sound_blockOf (((Clean.literal (by rfl)).append hw.guard).append (Clean.literal (by rfl)))
      (((Opens.literal (by rfl)).append _).append _)
      (hline _ (Clean.literal (by rfl)) (Opens.literal (by rfl)) (hw.call callee (Clean.literal (by rfl))))
  | read place => exact hline _ (Clean.literal (by rfl)) (Opens.literal (by rfl)) (hw.value place)
  | write place callee =>
    refine sound_blockOf (Clean.literal (by rfl)) (Opens.literal (by rfl)) fun l hl => ?_
    obtain rfl := List.mem_singleton.mp hl
    have hcall := hw.call callee (Clean.literal (s := "(arg / 2)") (by rfl))
    obtain ⟨hc, ho⟩ := hw.store place _ hcall
    exact ⟨hc, Or.inl ho⟩

theorem traceLine_clean (number : Nat) : Clean (traceLine number "arg") := by
  have hfront : Clean ("printf(\x22func " ++ toString number ++ " ") := (Clean.number number).between (by rfl)
  exact (((hfront.append (Clean.literal (by rfl))).append (Clean.literal (by rfl))).append (Clean.literal (by rfl))).append
    (Clean.literal (by rfl))

theorem traceLine_opens (number : Nat) : Opens (traceLine number "arg") :=
  ((((((Opens.literal (by rfl)).append _).append _).append _).append _).append _).append _

/-- The lines of a body are sound. -/
theorem Wording.Sound.bodyLines (hw : w.Sound) (number : Nat) (moves : List Move) :
    ∀ l ∈ w.bodyLines number moves, Line.Sound l := by
  intro l hl
  simp only [Wording.bodyLines, List.mem_append, List.mem_cons, List.mem_flatMap, List.not_mem_nil, or_false] at hl
  rcases hl with ((rfl | rfl | rfl) | ⟨m, -, hm⟩) | rfl
  · exact ⟨traceLine_clean number, Or.inl (traceLine_opens number)⟩
  · exact ⟨Clean.literal (by rfl), Or.inl (Opens.literal (by rfl))⟩
  · exact ⟨Clean.literal (by rfl), Or.inl (Opens.literal (by rfl))⟩
  · exact Move.lines_sound hw m l hm
  · exact ⟨Clean.literal (by rfl), Or.inl (Opens.literal (by rfl))⟩

theorem Wording.Sound.signature (hw : w.Sound) (number : Nat) :
    Clean (w.signature number) ∧ Opens (w.signature number) :=
  ⟨(((testName_clean number).between (by rfl)).append hw.params).append (Clean.literal (by rfl)),
    ((((Opens.literal (by rfl)).append _).append _).append _).append _⟩

/-- The lines of a generated function are sound. -/
theorem Wording.Sound.definition (hw : w.Sound) (number : Nat) (moves : List Move) :
    ∀ l ∈ w.definition number moves, Line.Sound l :=
  sound_blockOf ((hw.signature number).1.append (Clean.literal (by rfl))) ((hw.signature number).2.append _)
    (hw.bodyLines number moves)

theorem Wording.Sound.startLine (hw : w.Sound) (number callee : Nat) : Line.Sound (0, w.startLine number callee) :=
  ⟨((Clean.literal (by rfl)).append (hw.call callee (Clean.number number))).append (Clean.literal (by rfl)),
    Or.inl (((Opens.literal (by rfl)).append _).append _)⟩

/-- The lines of `main` are sound. -/
theorem Wording.Sound.main (hw : w.Sound) (values : List Nat) (starts : List (Nat × Nat)) :
    ∀ l ∈ w.main values starts, Line.Sound l := by
  refine sound_blockOf (Clean.literal (by rfl)) (Opens.literal (by rfl)) fun l hl => ?_
  simp only [List.mem_append, List.mem_cons, List.cons_append, List.mem_map, List.not_mem_nil, or_false] at hl
  rcases hl with rfl | (⟨s, hs, rfl⟩ | ⟨st, -, rfl⟩) | rfl
  · exact ⟨Clean.literal (by rfl), Or.inl (Opens.literal (by rfl))⟩
  · exact ⟨(hw.prelude values s hs).1, Or.inl (hw.prelude values s hs).2⟩
  · exact hw.startLine st.1 st.2
  · exact ⟨Clean.literal (by rfl), Or.inl (Opens.literal (by rfl))⟩

/-- All sections of a program hold lines, and all their lines are sound. -/
theorem Sketch.sections_sound (hw : w.Sound) (s : Sketch) (size : Nat) :
    ∀ ls ∈ s.sections w size, ls ≠ [] ∧ ∀ l ∈ ls, Line.Sound l := by
  intro ls hls
  have hone : ∀ {t : String}, Clean t → Opens t → [((0, t) : Line)] ≠ [] ∧ ∀ l ∈ [((0, t) : Line)], Line.Sound l := by
    intro t hc ho
    refine ⟨List.cons_ne_nil _ _, fun l hl => ?_⟩
    obtain rfl := List.mem_singleton.mp hl
    exact ⟨hc, Or.inl ho⟩
  simp only [Sketch.sections, Sketch.prototypes, Sketch.definitions, List.mem_append, List.mem_cons, List.mem_map,
    List.not_mem_nil, or_false] at hls
  rcases hls with ((((rfl | rfl) | ⟨k, -, rfl⟩) | hls) | ⟨k, -, rfl⟩) | rfl
  · exact hone (Clean.literal (by rfl)) (Opens.literal (by rfl))
  · exact hone (Clean.literal (by rfl)) (Opens.literal (by rfl))
  · exact hone ((hw.signature k).1.append (Clean.literal (by rfl))) ((hw.signature k).2.append _)
  · exact hw.helpers ls hls
  · exact ⟨List.cons_ne_nil _ _, hw.definition k _⟩
  · exact ⟨List.cons_ne_nil _ _, hw.main _ _⟩

/-! ## What is read off the lines

A line of a body stands in the text behind two blanks more.  Its first character is known, so that it can be seen whether
there are more blanks. -/

theorem printed_zero (s : String) : Line.printed 0 (0, s) = s := by
  simp [Line.printed]

/-- A line in a block begins with two blanks. -/
theorem toList_printed_succ (k : Nat) (s : String) :
    (Line.printed 0 (k + 1, s)).toList = ' ' :: ' ' :: (List.replicate (2 * k) ' ' ++ s.toList) := by
  have htwo : 2 * (0 + (k + 1)) = 2 * k + 1 + 1 := by omega
  rw [Line.printed, htwo, String.toList_append, String.toList_ofList, List.replicate_succ,
    List.replicate_succ]
  rfl

/-- A sound line is not empty when it is printed, and it is one line. -/
theorem Line.Sound.printed {l : Line} (h : l.Sound) (depth : Nat) :
    Line.printed depth l ≠ "" ∧ '\n' ∉ (Line.printed depth l).toList := by
  have hne : l.2 ≠ "" := by
    rcases h.begins with ⟨c, rest, hc, -⟩ | he
    · intro he; rw [he] at hc; cases hc
    · rw [he]; decide
  refine ⟨fun he => hne (String.append_eq_empty_iff.mp he).2, ?_⟩
  rw [Line.printed, String.toList_append, String.toList_ofList, List.mem_append, not_or]
  refine ⟨fun hm => ?_, h.clean.oneLine⟩
  exact absurd (List.eq_of_mem_replicate hm) (by decide)

/-- Whether a line of a body begins a statement of the first level. -/
def Line.isTop (l : Line) : Bool := l.1 = 0 && l.2 ≠ "\x7d"

/-- What stands at the margin is not on the first level. -/
theorem beginsTopLevel_of_opens {s : String} (h : Opens s) : beginsTopLevel s = false := by
  obtain ⟨c, rest, hs, hblank, -⟩ := h
  unfold beginsTopLevel
  rw [hs]
  split
  · rename_i heq
    exact absurd (List.cons.inj heq).1 hblank
  · rfl

/-- In a function, the lines of its body are told apart by what they look like. -/
theorem beginsTopLevel_printed {l : Line} (h : l.Sound) : beginsTopLevel (Line.printed 0 (l.1 + 1, l.2)) = l.isTop := by
  obtain ⟨k, s⟩ := l
  rw [beginsTopLevel, toList_printed_succ, Line.isTop]
  -- a deeper line has a third blank, and one on this level does not begin with a blank
  cases k with
  | succ k => rfl
  | zero =>
    rcases h.begins with ⟨c, rest, hs, hblank, hbrace⟩ | he
    · have hne : s ≠ "\x7d" := Opens.ne_brace ⟨c, rest, hs, hblank, hbrace⟩
      dsimp only at hs
      simp [hs, hblank, hbrace, hne]
    · dsimp only at he
      subst he
      rfl

/-- On the first level of a function stand the lines of its body that begin a statement there. -/
theorem topLevel_blockOf {first : String} {body : List Line} (hf : Opens first) (hb : ∀ l ∈ body, Line.Sound l) :
    topLevel ((blockOf first body).map (Line.printed 0)) = (body.filter Line.isTop).map (Line.printed 1) := by
  have hprinted : ∀ l : Line, Line.printed 0 (l.1 + 1, l.2) = Line.printed 1 l := fun l => by
    simp only [Line.printed, Nat.zero_add, Nat.add_comm]
  have hclose : beginsTopLevel (Line.printed 0 (0, "\x7d")) = false := by decide
  -- line by line, by what a line looks like in the text
  have hinner : ∀ body : List Line, (∀ l ∈ body, Line.Sound l) →
      ((deeper body).map (Line.printed 0)).filter beginsTopLevel = (body.filter Line.isTop).map (Line.printed 1) := by
    intro body hb
    induction body with
    | nil => rfl
    | cons l body ih =>
      have hl := beginsTopLevel_printed (hb l List.mem_cons_self)
      have ih' := ih fun m hm => hb m (List.mem_cons_of_mem l hm)
      simp only [deeper, List.map_cons, List.filter_cons] at ih' ⊢
      rw [hl, ih']
      split
      · rw [List.map_cons, hprinted]
      · rfl
  rw [topLevel, blockOf, List.map_append, List.map_cons, List.filter_append, List.filter_cons, hinner body hb,
    printed_zero, beginsTopLevel_of_opens hf, List.map_cons, List.filter_cons, hclose]
  simp

/-- A line that opens something is one of the first level. -/
theorem isTop_of_opens {s : String} (h : Opens s) : Line.isTop (0, s) = true := by
  simp [Line.isTop, h.ne_brace]

/-- Of a block, only its header is on the first level. -/
theorem filter_isTop_blockOf {first : String} (hf : Opens first) (body : List Line) :
    (blockOf first body).filter Line.isTop = [(0, first)] := by
  have hdeeper : (deeper body).filter Line.isTop = [] := by
    refine List.filter_eq_nil_iff.mpr fun l hl => ?_
    obtain ⟨m, -, rfl⟩ := List.mem_map.mp hl
    simp [Line.isTop]
  have hclose : Line.isTop (0, "\x7d") = false := by decide
  rw [blockOf, List.filter_append, List.filter_cons_of_pos (isTop_of_opens hf), hdeeper,
    List.filter_cons_of_neg (by simp [hclose])]
  rfl

/-- A move has one line on the first level. -/
theorem Move.filter_isTop (m : Move) : ∃ text, (m.lines w).filter Line.isTop = [(0, text)] := by
  cases m with
  | guardedCall callee => exact ⟨_, filter_isTop_blockOf (Opens.literal (by rfl)) _⟩
  | countedLoop callee => exact ⟨_, filter_isTop_blockOf (Opens.literal (by rfl)) _⟩
  | conditionedLoop callee =>
    exact ⟨_, filter_isTop_blockOf (((Opens.literal (by rfl)).append w.guard).append _) _⟩
  | read place =>
    have hopens : Opens ("sum += " ++ w.value place ++ ";") := ((Opens.literal (by rfl)).append _).append _
    exact ⟨_, List.filter_cons_of_pos (isTop_of_opens hopens)⟩
  | write place callee => exact ⟨_, filter_isTop_blockOf (Opens.literal (by rfl)) _⟩

/-- Moves have as many lines on the first level as there are moves. -/
theorem length_filter_isTop_moves (w : Wording) (moves : List Move) :
    ((moves.flatMap (Move.lines w)).filter Line.isTop).length = moves.length := by
  induction moves with
  | nil => rfl
  | cons m moves ih =>
    obtain ⟨text, ht⟩ := Move.filter_isTop (w := w) m
    rw [List.flatMap_cons, List.filter_append, ht, List.length_append, ih, List.length_cons, Nat.add_comm]
    rfl

/-- The statements on the first level of a generated function. -/
theorem topLevel_definition (hw : w.Sound) (number : Nat) (moves : List Move) :
    ∃ inner : List String, inner.length = moves.length ∧
      topLevel ((w.definition number moves).map (Line.printed 0)) =
        ["  " ++ traceLine number "arg", "  fflush(stdout);", "  int sum = 0;"] ++ inner ++ ["  return sum;"] := by
  refine ⟨((moves.flatMap (Move.lines w)).filter Line.isTop).map (Line.printed 1), ?_, ?_⟩
  · rw [List.length_map, length_filter_isTop_moves]
  · have hfront : [((0, traceLine number "arg") : Line), (0, "fflush(stdout);"), (0, "int sum = 0;")].filter Line.isTop
        = [(0, traceLine number "arg"), (0, "fflush(stdout);"), (0, "int sum = 0;")] := by
      rw [List.filter_cons_of_pos (isTop_of_opens (traceLine_opens number))]
      rfl
    have hlast : [((0, "return sum;") : Line)].filter Line.isTop = [(0, "return sum;")] := by decide
    rw [Wording.definition, topLevel_blockOf ((hw.signature number).2.append _) (hw.bodyLines number moves),
      Wording.bodyLines, List.filter_append, List.filter_append, List.map_append, List.map_append, hfront, hlast]
    rfl

/-- The statements on the first level of `main`. -/
theorem topLevel_main (hw : w.Sound) (values : List Nat) (starts : List (Nat × Nat)) :
    topLevel ((w.main values starts).map (Line.printed 0)) =
      "  int sum = 0;" :: (w.prelude values).map (fun s => "  " ++ s)
        ++ starts.map (fun st => "  " ++ w.startLine st.1 st.2) ++ ["  return sum;"] := by
  -- all lines of `main` begin a statement of the first level
  have hbody : ∀ l ∈ (0, "int sum = 0;") :: (w.prelude values).map (fun s => ((0, s) : Line))
      ++ starts.map (fun st => (0, w.startLine st.1 st.2)) ++ [(0, "return sum;")], Line.Sound l ∧ l.isTop := by
    intro l hl
    simp only [List.mem_append, List.mem_cons, List.cons_append, List.mem_map, List.not_mem_nil, or_false] at hl
    have hopens : ∀ {s : String}, Clean s → Opens s → Line.Sound (0, s) ∧ Line.isTop (0, s) := fun hc ho =>
      ⟨⟨hc, Or.inl ho⟩, isTop_of_opens ho⟩
    rcases hl with rfl | (⟨s, hs, rfl⟩ | ⟨st, -, rfl⟩) | rfl
    · exact hopens (Clean.literal (by rfl)) (Opens.literal (by rfl))
    · exact hopens (hw.prelude values s hs).1 (hw.prelude values s hs).2
    · exact hopens (hw.startLine st.1 st.2).clean (((Opens.literal (by rfl)).append _).append _)
    · exact hopens (Clean.literal (by rfl)) (Opens.literal (by rfl))
  rw [Wording.main, topLevel_blockOf (Opens.literal (by rfl)) fun l hl => (hbody l hl).1,
    List.filter_eq_self.mpr fun l hl => (hbody l hl).2]
  simp only [List.map_append, List.map_cons, List.map_map, List.map_nil]
  rfl

/-! ## Lines that open functions

Such lines are asked for by a question to each line of the text.  It is enough to ask it of first lines, if it says no to
everything that stands further in. -/

/-- A question about lines that no line in a block and no closing brace answers with yes. -/
structure AsksFirstLines (p : String → Bool) : Prop where
  /-- The empty line does not. -/
  empty : p "" = false
  /-- A line that begins with a blank does not. -/
  blank : ∀ s rest, s.toList = ' ' :: rest → p s = false
  /-- A closing brace does not. -/
  brace : p "\x7d" = false

theorem opensTest_asks : AsksFirstLines opensTest where
  empty := by decide
  blank s rest h := by rw [opensTest, h]; rfl
  brace := by decide

theorem opensMain_asks : AsksFirstLines opensMain where
  empty := by decide
  blank s rest h := by
    refine decide_eq_false fun he => ?_
    rw [he] at h
    exact absurd (List.cons.inj h).1 (by decide)
  brace := by decide

/-- In a function the answer lies in its first line. -/
theorem filter_blockOf {p : String → Bool} (hp : AsksFirstLines p) (first : String) (body : List Line) :
    ((blockOf first body).map (Line.printed 0)).filter p = [first].filter p := by
  have hdeeper : ((deeper body).map (Line.printed 0)).filter p = [] := by
    refine List.filter_eq_nil_iff.mpr fun s hs => ?_
    obtain ⟨l, hl, rfl⟩ := List.mem_map.mp hs
    obtain ⟨m, -, rfl⟩ := List.mem_map.mp hl
    rw [hp.blank _ _ (toList_printed_succ m.1 m.2)]
    exact Bool.false_ne_true
  have hclose : [Line.printed 0 (0, "\x7d")].filter p = [] := by
    rw [printed_zero]
    exact List.filter_cons_of_neg (by simp [hp.brace])
  rw [blockOf, List.map_append, List.map_cons, List.filter_append, List.filter_cons, hdeeper, List.map_cons,
    List.map_nil, hclose, printed_zero, List.append_nil, List.filter_cons, List.filter_nil]

/-- The text of a program, as lines of text. -/
def Sketch.texts (w : Wording) (s : Sketch) (size : Nat) : List (List String) :=
  (s.sections w size).map fun ls => ls.map (Line.printed 0)

/-- The first line of a generated function opens one. -/
theorem opensTest_definition (w : Wording) (k : Nat) : opensTest (w.signature k ++ " \x7b") = true := by
  have hfront : "int test_".toList.isPrefixOf (w.signature k ++ " \x7b").toList = true := by
    simp [Wording.signature, testName]
  have hlast : (w.signature k ++ " \x7b").toList.getLast? = some '\x7b' := by
    rw [String.toList_append, List.getLast?_append]
    rfl
  rw [opensTest, hfront, hlast]
  rfl

/-- An announcement opens none. -/
theorem opensTest_prototype (w : Wording) (k : Nat) : opensTest (w.signature k ++ ";") = false := by
  simp [opensTest]

/-- Nothing that begins like a generated function opens `main`. -/
theorem opensMain_of_signature (w : Wording) (k : Nat) (s : String) : opensMain (w.signature k ++ s) = false := by
  refine decide_eq_false fun he => ?_
  have hl := congrArg String.toList he
  simp [Wording.signature, testName] at hl

theorem filter_map_eq_nil {p : String → Bool} {f : Nat → List String} {l : List Nat} (h : ∀ k, (f k).filter p = []) :
    (l.map f).flatMap (List.filter p) = [] := by
  refine List.flatMap_eq_nil_iff.mpr fun x hx => ?_
  obtain ⟨k, -, rfl⟩ := List.mem_map.mp hx
  exact h k

/-- The helpers open neither as generated functions nor as `main` do. -/
theorem filter_helpers (config : SynthesisConfig) : ∀ p ∈ [opensTest, opensMain],
    (config.wording.helpers.map fun ls => ls.map (Line.printed 0)).flatMap (List.filter p) = [] := by
  unfold SynthesisConfig.wording
  cases config.strategy with
  | tree => exact fun p _ => rfl
  | flat =>
    intro p hp
    simp only [List.mem_cons, List.not_mem_nil, or_false] at hp
    rcases hp with rfl | rfl <;> decide

/-- What a question finds in a program, if it asks for first lines and finds none in helpers. -/
theorem Sketch.filter_texts {w : Wording} {p : String → Bool} (hp : AsksFirstLines p)
    (hh : (w.helpers.map fun ls => ls.map (Line.printed 0)).flatMap (List.filter p) = [])
    (hi : p "#include <stdio.h>" = false ∧ p "#include <stdlib.h>" = false)
    (hproto : ∀ k, p (w.signature k ++ ";") = false) (s : Sketch) (size : Nat) :
    (s.texts w size).flatMap (List.filter p) =
      ((List.range size).flatMap fun k => [w.signature k ++ " \x7b"].filter p) ++ ["int main() \x7b"].filter p := by
  -- section by section: announcements and libraries hold nothing that is asked for
  have hprototypes : ((Sketch.prototypes w size).map fun ls => ls.map (Line.printed 0)).flatMap (List.filter p) = [] := by
    rw [Sketch.prototypes, List.map_map]
    refine filter_map_eq_nil fun k => ?_
    rw [Function.comp, List.map_cons, List.map_nil, printed_zero, List.filter_cons_of_neg (by simp [hproto k])]
    rfl
  have hdefinitions : ((s.definitions w size).map fun ls => ls.map (Line.printed 0)).flatMap (List.filter p)
      = (List.range size).flatMap fun k => [w.signature k ++ " \x7b"].filter p := by
    rw [Sketch.definitions, List.map_map, List.flatMap_map]
    exact congrArg (List.flatMap · _) (funext fun k => filter_blockOf hp _ _)
  have hmain : [(w.main s.values s.starts).map (Line.printed 0)].flatMap (List.filter p)
      = ["int main() \x7b"].filter p := by
    rw [List.flatMap_cons, List.flatMap_nil, List.append_nil]
    exact filter_blockOf hp _ _
  have hincludes : ([[((0, "#include <stdio.h>") : Line)], [(0, "#include <stdlib.h>")]].map
      fun ls => ls.map (Line.printed 0)).flatMap (List.filter p) = [] := by
    simp [printed_zero, hi.1, hi.2]
  rw [Sketch.texts, Sketch.sections, List.map_append, List.map_append, List.map_append, List.map_append,
    List.flatMap_append, List.flatMap_append, List.flatMap_append, List.flatMap_append, hincludes, hprototypes, hh,
    hdefinitions, List.map_cons, List.map_nil, hmain]
  rfl

/-! ## Reading a program

An empty line stands between sections and nowhere else, so the sections come back when the text is cut there. -/

/-- A text of lines that ends its last one has an empty line at its end. -/
theorem linesOf_newline {ls : List String} (hne : ls ≠ []) (h : ∀ l ∈ ls, '\n' ∉ l.toList) :
    linesOf ("\n".intercalate ls ++ "\n") = ls ++ [""] := by
  have hlast : "\n".intercalate ls ++ "\n" = "\n".intercalate (ls ++ [""]) := by
    rw [String.intercalate_append_of_ne_nil hne (List.cons_ne_nil _ _), String.intercalate_singleton, String.append_empty]
  rw [hlast]
  refine linesOf_intercalate (by simp) fun l hl => ?_
  rcases List.mem_append.mp hl with hl | hl
  · exact h l hl
  · obtain rfl := List.mem_singleton.mp hl
    simp

/-- The lines of a program are not empty, and each is one line. -/
theorem Sketch.texts_sound {w : Wording} (hw : w.Sound) (s : Sketch) (size : Nat) :
    ∀ ls ∈ s.texts w size, ls ≠ [] ∧ ∀ l ∈ ls, l ≠ "" ∧ '\n' ∉ l.toList := by
  intro ls hls
  obtain ⟨lines, hlines, rfl⟩ := List.mem_map.mp hls
  obtain ⟨hne, hsound⟩ := s.sections_sound hw size lines hlines
  refine ⟨fun he => hne (List.map_eq_nil_iff.mp he), fun l hl => ?_⟩
  obtain ⟨m, hm, rfl⟩ := List.mem_map.mp hl
  exact (hsound m hm).printed 0

namespace Sketch

variable (hw : w.Sound) (s : Sketch) (size : Nat)

theorem texts_ne_nil (w : Wording) (s : Sketch) (size : Nat) : s.texts w size ≠ [] := by
  simp [texts, sections]

theorem source_eq (w : Wording) (s : Sketch) (size : Nat) : joinSections ((s.sections w size).map textOf) =
    "\n\n".intercalate ((s.texts w size).map ("\n").intercalate) ++ "\n" := by
  rw [joinSections, texts, List.map_map]
  rfl

include hw

/-- The lines of a program are those of its sections, an empty line between two of them and one at the end. -/
theorem linesOf_source :
    linesOf (joinSections ((s.sections w size).map textOf)) = [""].intercalate (s.texts w size) ++ [""] := by
  have hsound := s.texts_sound hw size
  rw [source_eq, intercalate_sections fun ls hls => (hsound ls hls).1]
  refine linesOf_newline ?_ fun l hl => ?_
  · obtain ⟨ls, rest, hcons⟩ := List.exists_cons_of_ne_nil (texts_ne_nil w s size)
    rw [hcons]
    exact intercalate_ne_nil (hsound ls (by rw [hcons]; exact List.mem_cons_self)).1 rest
  · rcases mem_intercalate hl with rfl | ⟨ls, hls, hl⟩
    · simp
    · exact ((hsound ls hls).2 l hl).2

/-- What is counted in a program is counted in its sections. -/
theorem countP_source {p : String → Bool} (hp : AsksFirstLines p) :
    (linesOf (joinSections ((s.sections w size).map textOf))).countP p =
      ((s.texts w size).flatMap (List.filter p)).length := by
  rw [linesOf_source hw, List.countP_append, List.countP_eq_length_filter, filter_intercalate hp.empty,
    List.countP_cons_of_neg (by simp [hp.empty]), List.countP_nil, Nat.add_zero]

/-- As many lines open generated functions as there are. -/
theorem countP_opensTest (hh : (w.helpers.map fun ls => ls.map (Line.printed 0)).flatMap (List.filter opensTest) = []) :
    (linesOf (joinSections ((s.sections w size).map textOf))).countP opensTest = size := by
  have hdefinitions : ((List.range size).flatMap fun k => [w.signature k ++ " \x7b"].filter opensTest)
      = (List.range size).map fun k => w.signature k ++ " \x7b" := by
    rw [List.map_eq_flatMap]
    exact congrArg (List.flatMap · _) (funext fun k => List.filter_cons_of_pos (opensTest_definition w k))
  have hmain : ["int main() \x7b"].filter opensTest = [] := by decide
  rw [countP_source hw s size opensTest_asks, filter_texts opensTest_asks hh (by decide) (opensTest_prototype w),
    hdefinitions, hmain, List.append_nil, List.length_map, List.length_range]

/-- One line opens `main`. -/
theorem countP_opensMain (hh : (w.helpers.map fun ls => ls.map (Line.printed 0)).flatMap (List.filter opensMain) = []) :
    (linesOf (joinSections ((s.sections w size).map textOf))).countP opensMain = 1 := by
  have hdefinitions : ((List.range size).flatMap fun k => [w.signature k ++ " \x7b"].filter opensMain) = [] :=
    List.flatMap_eq_nil_iff.mpr fun k _ => List.filter_cons_of_neg (by simp [opensMain_of_signature])
  have hmain : ["int main() \x7b"].filter opensMain = ["int main() \x7b"] := by decide
  rw [countP_source hw s size opensMain_asks,
    filter_texts opensMain_asks hh (by decide) (fun k => opensMain_of_signature w k _), hdefinitions, hmain]
  rfl

end Sketch

/-! ## The layout of a program

  The texts in the layout are written out here, without the functions that print them, so that the layout can be read by
  itself.  That they are what the wording of a configuration says is a matter of putting pieces of text together
  (`SynthesisConfig.heading_eq` and its kin). -/

namespace SynthesisConfig

/-- How the function of a number is announced, up to the closing bracket. -/
def heading (config : SynthesisConfig) (number : Nat) : String :=
  match config.strategy with
  | .tree => "int test_" ++ toString number ++ "(int arg, int* arr)"
  | .flat => "int test_" ++ toString number ++ "(int arg)"

/-- What `main` declares besides the total: the array with its values, if there is one. -/
def arrayLines (config : SynthesisConfig) (values : List Nat) : List String :=
  match config.strategy with
  | .tree => ["  int arr[] = \x7b" ++ ", ".intercalate (values.map toString) ++ "\x7d;"]
  | .flat => []

/-- The line of `main` that calls the function of a number, with a number to start from. -/
def startText (config : SynthesisConfig) (start callee : Nat) : String :=
  match config.strategy with
  | .tree => "  sum += test_" ++ toString callee ++ "(" ++ toString start ++ ", arr);"
  | .flat => "  sum += test_" ++ toString callee ++ "(" ++ toString start ++ ");"

/-- That is what the wording says of the signature. -/
theorem heading_eq (config : SynthesisConfig) (number : Nat) :
    config.wording.signature number = config.heading number := by
  unfold wording heading
  apply String.toList_injective
  cases config.strategy <;> simp [Wording.signature, testName, arrayWording, fileWording]

/-- That is what it says of the array. -/
theorem arrayLines_eq (config : SynthesisConfig) (values : List Nat) :
    (config.wording.prelude values).map (fun s => "  " ++ s) = config.arrayLines values := by
  unfold wording arrayLines
  cases config.strategy with
  | tree =>
    refine congrArg (fun text => [text]) (String.toList_injective ?_)
    simp
  | flat => rfl

/-- That is what it says of a call. -/
theorem startText_eq (config : SynthesisConfig) (start callee : Nat) :
    "  " ++ config.wording.startLine start callee = config.startText start callee := by
  unfold wording startText
  apply String.toList_injective
  cases config.strategy <;> simp [Wording.startLine, Wording.call, testName, arrayWording, fileWording]

end SynthesisConfig

theorem traceLine_arg (number : Nat) :
    "  " ++ traceLine number "arg" = "  printf(\x22func " ++ toString number ++ " arg %d\\n\x22, arg);" := by
  unfold traceLine
  generalize toString number = digits
  apply String.toList_injective
  simp

/-- The text of a program of a configuration, read again as sections of lines. -/
structure LaidOut (config : SynthesisConfig) (source : String) (definitions : Nat → List String) (main : List String) :
    Prop where
  /-- Up to the newline at its end the text is sections with empty lines between them: the libraries, the
  announcements, the helpers, the generated functions and `main`. None is empty or holds an empty line. -/
  sections : ∃ body, source = body ++ "\n" ∧ paragraphs body =
    [["#include <stdio.h>"], ["#include <stdlib.h>"]]
      ++ (List.range config.functions).map (fun k => [config.heading k ++ ";"])
      ++ config.wording.helpers.map (fun ls => ls.map (Line.printed 0))
      ++ (List.range config.functions).map definitions ++ [main] ∧ ∀ ls ∈ paragraphs body, ls ≠ [] ∧ "" ∉ ls
  /-- A generated function opens as it is announced. -/
  opening : ∀ k < config.functions, (definitions k).head? = some (config.heading k ++ " \x7b")
  /-- On its first level it has four statements besides those of the budget. -/
  statements : ∀ k < config.functions, ∃ inner : List String,
    inner.length = config.statements.getD config.functions ∧ topLevel (definitions k) =
      ["  printf(\x22func " ++ toString k ++ " arg %d\\n\x22, arg);", "  fflush(stdout);", "  int sum = 0;"] ++ inner
        ++ ["  return sum;"]
  /-- `main` declares, calls as many functions as there are, and returns. -/
  main : main.head? = some "int main() \x7b" ∧ ∃ (values : List Nat) (starts : List (Nat × Nat)),
    starts.length = config.functions ∧ (∀ st ∈ starts, st.2 < config.functions) ∧
      topLevel main = "  int sum = 0;" :: config.arrayLines values
        ++ starts.map (fun st => config.startText st.1 st.2) ++ ["  return sum;"]
  /-- As many lines open generated functions as there are, and one opens `main`. -/
  counts : (linesOf source).countP opensTest = config.functions ∧ (linesOf source).countP opensMain = 1

/-- **Every program that is asked for comes about, and its text is laid out in sections.** -/
theorem generate_laidOut (config : SynthesisConfig) (g : Source) (pos : 0 < config.functions)
    (fits : config.functions * config.functions < 2 ^ 63) :
    ∃ (p : Program) (definitions : Nat → List String) (main : List String),
      generate config g = .ok p ∧ LaidOut config p.source definitions main := by
  obtain ⟨s, p, hs, hp, hsource⟩ := generate_sketch config g pos fits
  have hw := config.wording_sound
  have hsound := s.texts_sound hw config.functions
  have hparagraphs := (paragraphs_join (s.texts_ne_nil config.wording config.functions) hsound).2
  -- the sections are read off the text, and what is said about them is known of their lines
  refine ⟨p, fun k => (config.wording.definition k (s.moves k)).map (Line.printed 0),
    (config.wording.main s.values s.starts).map (Line.printed 0), hp, ?_⟩
  rw [hsource]
  refine ⟨⟨_, s.source_eq config.wording config.functions, ?_, ?_⟩, fun k _ => ?_, fun k hk => ?_,
    ⟨?_, s.values, s.starts, hs.starts.1, hs.starts.2, ?_⟩,
    s.countP_opensTest hw _ (filter_helpers config _ List.mem_cons_self),
    s.countP_opensMain hw _ (filter_helpers config _ (List.mem_cons_of_mem _ List.mem_cons_self))⟩
  · rw [hparagraphs]
    simp [Sketch.texts, Sketch.sections, Sketch.prototypes, Sketch.definitions, printed_zero, Function.comp_def,
      config.heading_eq]
  · rw [hparagraphs]
    exact fun ls hls => ⟨(hsound ls hls).1, fun hempty => ((hsound ls hls).2 "" hempty).1 rfl⟩
  · rw [← config.heading_eq]
    exact congrArg some (printed_zero _)
  · obtain ⟨inner, hlength, htop⟩ := topLevel_definition hw k (s.moves k)
    rw [traceLine_arg] at htop
    exact ⟨inner, hlength.trans (hs.moves k hk).1, htop⟩
  · exact congrArg some (printed_zero _)
  · rw [topLevel_main hw, config.arrayLines_eq]
    simp only [config.startText_eq]

/-- Three functions of two statements each, which read and write files. -/
def threeWithFiles : SynthesisConfig := { strategy := .flat, functions := 3, statements := some 2 }

/-- Such a program comes about and is laid out. -/
theorem threeWithFiles_laidOut : ∃ (p : Program) (definitions : Nat → List String) (main : List String),
    generate threeWithFiles (.ofSeed 7) = .ok p ∧ LaidOut threeWithFiles p.source definitions main :=
  generate_laidOut threeWithFiles (.ofSeed 7) (by decide) (by decide)

end SeedCorpus
