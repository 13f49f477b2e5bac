/-
  Texts, read again.

  A text is read as its lines (`linesOf`), and its lines as paragraphs with empty lines between them (`paragraphs`).  Sections
  of lines that are neither empty nor broken come back from the text that they are put together to (`paragraphs_join`), and
  what is counted in the text is counted in the sections (`filter_intercalate`).

  Texts are built from pieces, and the pieces are `Clean`: no line ends in them, no `k` occurs, no `n` stands in front of a
  `u`, and none stands at the end.  The last point is what lets clean pieces be put together (`Clean.append`), and
  the two points before it keep the words `break` and `continue` out (`isQuiet`).
-/
import SeedCorpus.Proofs.Rendering.Wording

namespace SeedCorpus

/-! ## Reading texts -/

/-- The lines of a text. -/
def linesOf (text : String) : List String := (text.toList.splitOn '\n').map String.ofList

/-- The paragraphs of a text, as lines: what stands between its empty lines. -/
def paragraphs (text : String) : List (List String) := (linesOf text).splitOn ""

/-- Whether a line of a function begins a statement on its first level: it is indented by two blanks, and no closing
brace follows. -/
def beginsTopLevel (line : String) : Bool :=
  match line.toList with
  | ' ' :: ' ' :: c :: _ => c ≠ ' ' && c ≠ '\x7d'
  | _ => false

/-- The first lines of the statements on the first level of a function. -/
def topLevel (ls : List String) : List String := ls.filter beginsTopLevel

/-- Whether a line opens a generated function. -/
def opensTest (line : String) : Bool := "int test_".toList.isPrefixOf line.toList && line.toList.getLast? = some '\x7b'

/-- Whether a line opens `main`. -/
def opensMain (line : String) : Bool := line = "int main() \x7b"

/-! ## Putting sections together

Sections are lists of lines.  They are put together with an empty line between two, and their lines with a line end between
two; the empty lines are what parts the sections again. -/

/-- What stands in front of the first `c`, and what stands behind it, is determined. -/
theorem append_cons_inj {α : Type} {c : α} {a a' b b' : List α} (ha : c ∉ a) (ha' : c ∉ a')
    (h : a ++ c :: b = a' ++ c :: b') : a = a' ∧ b = b' := by
  rcases List.append_eq_append_iff.mp h with ⟨rest, rfl, hrest⟩ | ⟨rest, rfl, hrest⟩
  · cases rest with
    | nil => exact ⟨(List.append_nil a).symm, (List.cons.inj hrest).2⟩
    | cons d rest =>
      obtain ⟨rfl, -⟩ := List.cons.inj hrest
      exact absurd (List.mem_append_right a List.mem_cons_self) ha'
  · cases rest with
    | nil => exact ⟨List.append_nil a', ((List.cons.inj hrest).2).symm⟩
    | cons d rest =>
      obtain ⟨rfl, -⟩ := List.cons.inj hrest
      exact absurd (List.mem_append_right a' List.mem_cons_self) ha

/-- Lines without line ends come back from the text that they are put together to. -/
theorem linesOf_intercalate {ls : List String} (hne : ls ≠ []) (h : ∀ l ∈ ls, '\n' ∉ l.toList) :
    linesOf ("\n".intercalate ls) = ls := by
  have hsplit : (['\n'].intercalate (ls.map String.toList)).splitOn '\n' = ls.map String.toList := by
    refine List.splitOn_intercalate '\n' (fun l hl => ?_) (by simpa using hne)
    obtain ⟨s, hs, rfl⟩ := List.mem_map.mp hl
    exact h s hs
  have hnl : "\n".toList = ['\n'] := rfl
  rw [linesOf, String.toList_intercalate, hnl, hsplit, List.map_map]
  simp

/-- Sections of which the first has a line have a line. -/
theorem intercalate_ne_nil {s : List String} (h : s ≠ []) (ss : List (List String)) : [""].intercalate (s :: ss) ≠ [] := by
  cases ss with
  | nil => simpa using h
  | cons t ss => simp [List.intercalate_cons_cons]

/-- A line among sections is one of a section, or the empty one between two. -/
theorem mem_intercalate {l : String} : ∀ {ss : List (List String)}, l ∈ [""].intercalate ss → l = "" ∨ ∃ s ∈ ss, l ∈ s
  | [], h => by cases h
  | [s], h => Or.inr ⟨s, List.mem_cons_self, by simpa using h⟩
  | s :: t :: ss, h => by
    rw [List.intercalate_cons_cons, List.mem_append, List.mem_append, List.mem_singleton] at h
    rcases h with (hs | he) | ht
    · exact Or.inr ⟨s, List.mem_cons_self, hs⟩
    · exact Or.inl he
    · rcases mem_intercalate ht with he | ⟨u, hu, hl⟩
      · exact Or.inl he
      · exact Or.inr ⟨u, List.mem_cons_of_mem s hu, hl⟩

/-- A line of a section is a line among the sections. -/
theorem mem_intercalate_of_mem {l : String} {s : List String} (hl : l ∈ s) :
    ∀ {ss : List (List String)}, s ∈ ss → l ∈ [""].intercalate ss
  | [t], hs => by
    obtain rfl := List.mem_singleton.mp hs
    simpa using hl
  | t :: u :: ss, hs => by
    rw [List.intercalate_cons_cons, List.mem_append]
    rcases List.mem_cons.mp hs with rfl | hs
    · exact Or.inl (List.mem_append_left _ hl)
    · exact Or.inr (mem_intercalate_of_mem hl hs)

/-- Sections with an empty line between them are lines, the empty ones among them. -/
theorem intercalate_sections : ∀ {ss : List (List String)}, (∀ s ∈ ss, s ≠ []) →
    "\n\n".intercalate (ss.map ("\n").intercalate) = "\n".intercalate ([""].intercalate ss)
  | [], _ => rfl
  | [s], _ => by simp
  | s :: t :: ss, h => by
    have ih : "\n\n".intercalate ((t :: ss).map ("\n").intercalate) = "\n".intercalate ([""].intercalate (t :: ss)) :=
      intercalate_sections fun x hx => h x (List.mem_cons_of_mem s hx)
    have hs := h s List.mem_cons_self
    have ht := h t (List.mem_cons_of_mem s List.mem_cons_self)
    have hrest := intercalate_ne_nil ht ss
    -- the gap between sections is a line end, an empty line and another line end
    have hgap : ∀ x : String, "\n\n" ++ x = "\n" ++ ("\n" ++ x) := fun x => by
      rw [← String.append_assoc]
      rfl
    -- the first section is split off on both sides, and the induction gives the rest
    rw [List.map_cons, List.map_cons, String.intercalate_cons_cons, ← List.map_cons, ih, List.intercalate_cons_cons,
      List.append_assoc, String.intercalate_append_of_ne_nil hs (by simp),
      String.intercalate_append_of_ne_nil (by simp) hrest, String.intercalate_singleton, String.empty_append]
    simp only [String.append_assoc, hgap]

variable {ss : List (List String)}

/-- Sections come back as the paragraphs of the text. -/
theorem paragraphs_join (hne : ss ≠ []) (h : ∀ s ∈ ss, s ≠ [] ∧ ∀ l ∈ s, l ≠ "" ∧ '\n' ∉ l.toList) :
    linesOf ("\n\n".intercalate (ss.map ("\n").intercalate)) = [""].intercalate ss ∧
      paragraphs ("\n\n".intercalate (ss.map ("\n").intercalate)) = ss := by
  have hlines : linesOf ("\n\n".intercalate (ss.map ("\n").intercalate)) = [""].intercalate ss := by
    rw [intercalate_sections fun s hs => (h s hs).1]
    refine linesOf_intercalate ?_ fun l hl => ?_
    · obtain ⟨s, rest, rfl⟩ := List.exists_cons_of_ne_nil hne
      exact intercalate_ne_nil (h s List.mem_cons_self).1 rest
    · rcases mem_intercalate hl with rfl | ⟨s, hs, hl⟩
      · simp
      · exact ((h s hs).2 l hl).2
  refine ⟨hlines, ?_⟩
  rw [paragraphs, hlines]
  exact List.splitOn_intercalate "" (fun s hs hm => ((h s hs).2 "" hm).1 rfl) hne

/-- What is found among the lines of sections is found in the sections. -/
theorem filter_intercalate {p : String → Bool} (hp : p "" = false) : ∀ ss : List (List String),
    ([""].intercalate ss).filter p = ss.flatMap (List.filter p)
  | [] => rfl
  | [s] => by simp
  | s :: t :: ss => by
    have ih := filter_intercalate hp (t :: ss)
    rw [List.intercalate_cons_cons, List.filter_append, List.filter_append, ih, List.filter_cons_of_neg (by simp [hp]),
      List.filter_nil, List.append_nil]
    rfl

/-! ## Quiet texts

The condition looks at one character and the next, so it is decided by going through a text once, and it is kept when texts
are put together.  Not holding a word would not be: `brea` and `k` hold none. -/

/-- No `k` occurs, and every `n` has something behind it that is no `u`. -/
def isQuiet : List Char → Bool
  | [] => true
  | c :: rest => c ≠ 'k' && (c ≠ 'n' || rest.head?.any (· ≠ 'u')) && isQuiet rest

/-- Quiet texts are put together to one. -/
theorem isQuiet_append {a b : List Char} (ha : isQuiet a) (hb : isQuiet b) : isQuiet (a ++ b) := by
  induction a with
  | nil => exact hb
  | cons c a ih =>
    simp only [isQuiet, Bool.and_eq_true] at ha
    -- what stands behind `c` is the same, unless `c` was the last; then it is no `n`
    have hhead : (c ≠ 'n' || (a ++ b).head?.any (· ≠ 'u')) = true := by
      cases a with
      | nil =>
        have hn : c ≠ 'n' := by simpa using ha.1.2
        simp [hn]
      | cons d a => exact ha.1.2
    rw [List.cons_append, isQuiet, ha.1.1, hhead, ih ha.2]
    rfl

/-- The end of a quiet text is quiet. -/
theorem isQuiet_of_append {a b : List Char} (h : isQuiet (a ++ b)) : isQuiet b := by
  induction a with
  | nil => exact h
  | cons c a ih =>
    simp only [List.cons_append, isQuiet, Bool.and_eq_true] at h
    exact ih h.2

/-- What holds neither of the two letters is quiet. -/
theorem isQuiet_of_forall {a : List Char} (h : ∀ c ∈ a, c ≠ 'k' ∧ c ≠ 'n') : isQuiet a := by
  induction a with
  | nil => rfl
  | cons c a ih =>
    obtain ⟨hk, hn⟩ := h c List.mem_cons_self
    simp [isQuiet, hk, hn, ih fun d hd => h d (List.mem_cons_of_mem c hd)]

/-- A quiet text holds no `break`. -/
theorem no_break_of_isQuiet {a : List Char} (h : isQuiet a) : ¬ "break".toList <:+: a := by
  rintro ⟨front, back, rfl⟩
  rw [List.append_assoc] at h
  -- the text from the word on is quiet too, and the word begins with letters that are not
  have hb := isQuiet_of_append h
  simp [isQuiet] at hb

/-- A quiet text holds no `continue`. -/
theorem no_continue_of_isQuiet {a : List Char} (h : isQuiet a) : ¬ "continue".toList <:+: a := by
  rintro ⟨front, back, rfl⟩
  rw [List.append_assoc] at h
  have hb := isQuiet_of_append h
  simp [isQuiet] at hb

/-- What holds of texts and of what is put between them holds of what they are put together to. -/
theorem intercalate_induction {P : String → Prop} {s : String} (empty : P "") (append : ∀ {t u}, P t → P u → P (t ++ u))
    (hs : P s) : ∀ {l : List String}, (∀ t ∈ l, P t) → P (s.intercalate l)
  | [], _ => empty
  | [t], h => by simpa using h t List.mem_cons_self
  | t :: u :: l, h => by
    rw [String.intercalate_cons_cons]
    exact append (append (h t List.mem_cons_self) hs)
      (intercalate_induction empty append hs fun x hx => h x (List.mem_cons_of_mem t hx))

/-! ## Clean pieces

A program is built from names, numbers and fixed texts; each of them is clean. -/

/-- A piece of a line that keeps a text quiet. -/
structure Clean (s : String) : Prop where
  /-- It is quiet. -/
  quiet : isQuiet s.toList
  /-- No line ends in it. -/
  oneLine : '\n' ∉ s.toList

/-- Clean pieces are put together to one. -/
theorem Clean.append {s t : String} (hs : Clean s) (ht : Clean t) : Clean (s ++ t) where
  quiet := by rw [String.toList_append]; exact isQuiet_append hs.quiet ht.quiet
  oneLine := by
    rw [String.toList_append, List.mem_append]
    exact not_or.mpr ⟨hs.oneLine, ht.oneLine⟩

/-- A number is written in digits. -/
theorem isDigit_of_mem_toString {n : Nat} {c : Char} (hc : c ∈ (toString n).toList) : c.isDigit := by
  have hmem : c ∈ Nat.toDigits 10 n := by simpa using hc
  exact Nat.isDigit_of_mem_toDigits (by decide) (by decide) hmem

/-- Numbers are told apart by how they are written. -/
theorem toString_injective {m n : Nat} (h : toString m = toString n) : m = n := by
  have hdigits : Nat.toDigits 10 m = Nat.toDigits 10 n := by
    have hlist := congrArg String.toList h
    simpa using hlist
  rw [← Nat.ofDigitChars_toDigits (b := 10) (n := m) (by decide) (by decide), hdigits,
    Nat.ofDigitChars_toDigits (by decide) (by decide)]

/-- A number is clean. -/
theorem Clean.number (n : Nat) : Clean (toString n) := by
  have hne : ∀ d, d.isDigit = false → d ∉ (toString n).toList := fun d hd hm => by
    rw [isDigit_of_mem_toString hm] at hd
    cases hd
  refine ⟨isQuiet_of_forall fun c hc => ⟨?_, ?_⟩, hne '\n' (by decide)⟩
  · rintro rfl; exact hne 'k' (by decide) hc
  · rintro rfl; exact hne 'n' (by decide) hc

/-! ## Names of functions

The generated functions are named by their numbers, behind a prefix that no other name has. -/

/-- The name of a generated function is none that begins otherwise. -/
theorem testName_ne {k : Nat} {name : String} (h : "test_".toList.isPrefixOf name.toList = false) : testName k ≠ name := by
  rintro rfl
  have hfront : "test_".toList.isPrefixOf (testName k).toList = true := by
    rw [testName, String.toList_append]
    exact List.isPrefixOf_iff_prefix.mpr (List.prefix_append _ _)
  rw [hfront] at h
  cases h

/-- Different numbers make different names. -/
theorem testName_injective {m n : Nat} (h : testName m = testName n) : m = n :=
  toString_injective ((String.append_right_inj _).mp h)

end SeedCorpus
