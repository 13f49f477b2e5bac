/-
  Requests to a symbol table.

  A table is asked, in any order, to give a text a fresh symbol or to find the symbol of a text (`SymbolTable.Request`).  It
  keeps the texts twice, by position and by text, and a fresh symbol hides an older one of the same text.

  1. **One request.**  A request either gives out the next position or, if it may, the symbol that is found
     (`answer_cases`).  Everything below is read off these two cases.
  2. **The two ways agree.**  What is found for a text is the symbol with the greatest position among those that stand for
     it (`Newest`), and nothing is found only for texts that no request was about (`lookup_after_eq_none`).
  3. **The history.**  What a request was answered with stands for its text from then on (`text?_of_log`).  In the order in
     which they first occur, the answers are the positions 0, 1, 2, ... (`answers_eraseDups`); if the requests only look for
     symbols, the texts behind these positions are the texts of the requests in the same order (`texts_eraseDups`).
-/
import Mathlib.Data.List.Induction
import SeedCorpus.Proofs.Synthesis.Pools

namespace SeedCorpus.SymbolTable

/-! ## Requests

A text may have several symbols here, as an insertion gives out a fresh one even if there is one already.  The registry only
ever interns; but a table can be asked for both, in any order. -/

/-- What a symbol table is asked to do with a text. -/
inductive Request where
  /-- To give the text a fresh symbol. The text may be handed over or lent: the table keeps one of its own. -/
  | insert (text : String)
  /-- To find the symbol of the text, or else to give it one. -/
  | intern (text : String)
deriving DecidableEq, Repr

namespace Request

/-- The text that a request is about. -/
def text : Request → String
  | .insert text | .intern text => text

/-- Whether a request asks for a symbol that may be there already. -/
def isIntern : Request → Bool
  | .insert _ => false
  | .intern _ => true

end Request

/-- The symbol that a request is answered with, and the table afterwards. -/
def answer (t : SymbolTable) : Request → Symbol × SymbolTable
  | .insert text => t.insert text
  | .intern text => t.intern text

/-- The table after requests, one after the other. -/
def after (t : SymbolTable) (history : List Request) : SymbolTable := history.foldl (fun t q => (t.answer q).2) t

/-- Requests with the symbols that they are answered with. -/
def log (t : SymbolTable) : List Request → List (Request × Symbol)
  | [] => []
  | q :: history => (q, (t.answer q).1) :: (t.answer q).2.log history

variable {t : SymbolTable} {q : Request} {s : Symbol} {text : String}

/-- More requests go on from the table that there is. -/
theorem after_append (t : SymbolTable) (history later : List Request) :
    t.after (history ++ later) = (t.after history).after later := List.foldl_append

/-- The answers to more requests go on from the table that there is. -/
theorem log_append (history later : List Request) : ∀ t : SymbolTable,
    t.log (history ++ later) = t.log history ++ (t.after history).log later := by
  induction history with
  | nil =>
    intro t
    rfl
  | cons q history ih =>
    intro t
    exact congrArg (_ :: ·) (ih (t.answer q).2)

/-! ## One request

A request that inserts, and one that finds nothing, change the table in the same way; a request that finds something does not
change it at all. -/

/-- An insertion adds one symbol. -/
theorem size_insert (t : SymbolTable) (text : String) : (t.insert text).2.size = t.size + 1 := Array.size_push text

/-- A request either inserts its text, or it looks for the symbol of a text and finds one. -/
theorem answer_cases (t : SymbolTable) (q : Request) :
    (t.answer q = t.insert q.text ∧ (q.isIntern → t.lookup q.text = none)) ∨
      ∃ s, q.isIntern ∧ t.lookup q.text = some s ∧ t.answer q = (s, t) := by
  cases q with
  | insert text => exact Or.inl ⟨rfl, fun h => nomatch h⟩
  | intern text =>
    cases hl : t.lookup text with
    | none =>
      refine Or.inl ⟨?_, fun _ => hl⟩
      show t.intern text = t.insert text
      rw [SymbolTable.intern, hl]
    | some s => exact Or.inr ⟨s, rfl, hl, intern_of_lookup hl⟩

/-- No request takes a text away from its symbol. -/
theorem keeps_answer (t : SymbolTable) (q : Request) : t.Keeps (t.answer q).2 := by
  rcases t.answer_cases q with ⟨he, -⟩ | ⟨s, -, -, he⟩
  · rw [he]
    exact insert_keeps t q.text
  · rw [he]
    exact Keeps.refl t

/-- Nor do any requests, one after the other. -/
theorem keeps_after (history : List Request) : ∀ t : SymbolTable, t.Keeps (t.after history) := by
  induction history with
  | nil => exact Keeps.refl
  | cons q history ih =>
    intro t
    exact (t.keeps_answer q).trans (ih (t.answer q).2)

/-! ## What is found

`Newest` says in one go that what is found stands for the text, and that nothing newer does.  It is kept by every request, as
an insertion gives out a position that is greater than all before it. -/

/-- What is found for a text is the symbol with the greatest position among those that stand for the text. -/
def Newest (t : SymbolTable) : Prop :=
  ∀ text s, t.lookup text = some s ↔ t.text? s = some text ∧ ∀ s', t.text? s' = some text → s'.id ≤ s.id

/-- In the empty table nothing is found, and nothing stands for anything. -/
theorem newest_empty : Newest {} := by
  intro text s
  constructor
  · intro h
    cases h
  · rintro ⟨h, -⟩
    cases h

/-- Symbols that stand for a text are positions below the size. -/
theorem id_lt_of_text? (h : t.text? s = some text) : s.id < t.size := (Array.getElem?_eq_some_iff.mp h).1

/-- An insertion changes nothing for other texts. -/
theorem text?_insert_of_ne {other : String} (hne : other ≠ text) (s : Symbol) :
    (t.insert text).2.text? s = some other ↔ t.text? s = some other := by
  rw [text?_insert_eq]
  by_cases hs : s = ⟨t.size⟩
  · subst hs
    rw [if_pos rfl, text?_size]
    constructor
    · intro he
      exact absurd (Option.some.inj he).symm hne
    · intro he
      cases he
  · rw [if_neg hs]

/-- An insertion makes the fresh symbol the newest of its text. -/
theorem Newest.insert (h : t.Newest) (text : String) : (t.insert text).2.Newest := by
  intro other s
  rw [lookup_insert]
  by_cases ho : other = text
  · subst ho
    rw [if_pos rfl]
    -- nothing lies above the fresh symbol
    have hbound : ∀ s', (t.insert other).2.text? s' = some other → s'.id ≤ t.size := by
      intro s' hs'
      have hlt := id_lt_of_text? hs'
      rw [size_insert] at hlt
      omega
    constructor
    · intro he
      obtain rfl := Option.some.inj he
      exact ⟨text?_insert t other, hbound⟩
    · -- the fresh symbol stands for the text too, and no position is greater than its
      rintro ⟨hs, hgreatest⟩
      have hle := hbound s hs
      have hge : t.size ≤ s.id := hgreatest ⟨t.size⟩ (text?_insert t other)
      have hid : t.size = s.id := by omega
      rw [hid]
  · rw [if_neg ho, h, text?_insert_of_ne ho]
    simp only [text?_insert_of_ne ho]

/-- Whatever is asked for, what is found is the newest. -/
theorem Newest.answer (h : t.Newest) (q : Request) : (t.answer q).2.Newest := by
  rcases t.answer_cases q with ⟨he, -⟩ | ⟨s, -, -, he⟩
  · rw [he]
    exact h.insert q.text
  · rw [he]
    exact h

/-- After any requests, what is found is the newest. -/
theorem Newest.after (history : List Request) : ∀ {t : SymbolTable}, t.Newest → (t.after history).Newest := by
  induction history with
  | nil => exact fun h => h
  | cons q history ih => exact fun h => ih (h.answer q)

/-- After a request nothing is found for the texts for which nothing was found before, its own text apart. -/
theorem lookup_answer_eq_none (t : SymbolTable) (q : Request) (text : String) :
    (t.answer q).2.lookup text = none ↔ t.lookup text = none ∧ q.text ≠ text := by
  rcases t.answer_cases q with ⟨he, -⟩ | ⟨s, -, hl, he⟩
  · rw [he, lookup_insert]
    by_cases ho : text = q.text
    · rw [if_pos ho]
      exact iff_of_false (fun h => nomatch h) fun h => h.2 ho.symm
    · rw [if_neg ho]
      exact (and_iff_left (Ne.symm ho)).symm
  · rw [he]
    refine ⟨fun h => ⟨h, ?_⟩, And.left⟩
    rintro rfl
    rw [hl] at h
    cases h

/-- After any requests nothing is found for a text if and only if nothing was found before, and none of them was about it. -/
theorem lookup_after_eq_none (history : List Request) (text : String) : ∀ t : SymbolTable,
    (t.after history).lookup text = none ↔ t.lookup text = none ∧ ∀ q ∈ history, q.text ≠ text := by
  induction history with
  | nil =>
    intro t
    exact (and_iff_left fun q hq => nomatch hq).symm
  | cons q history ih =>
    intro t
    show ((t.answer q).2.after history).lookup text = none ↔ _
    rw [ih, lookup_answer_eq_none, List.forall_mem_cons, and_assoc]

/-! ## The history

What was asked for and what was answered is compared with the table at the end.  Two of the lemmas are by induction from the
end of the history, as it is the last request that may bring something new. -/

/-- What a request is answered with stands for its text. -/
theorem text?_answer (h : t.Newest) (q : Request) : (t.answer q).2.text? (t.answer q).1 = some q.text := by
  rcases t.answer_cases q with ⟨he, -⟩ | ⟨s, -, hl, he⟩
  · rw [he]
    exact text?_insert t q.text
  · rw [he]
    exact ((h _ _).mp hl).1

/-- What requests are answered with stands for their texts from then on. -/
theorem text?_of_log (history : List Request) : ∀ {t : SymbolTable}, t.Newest → ∀ e ∈ t.log history,
    (t.after history).text? e.2 = some e.1.text := by
  induction history with
  | nil => exact fun _ _ he => nomatch he
  | cons q history ih =>
    intro t h e he
    -- the first answer stands for its text right away, and symbols keep their texts
    rcases List.mem_cons.mp he with rfl | he
    · exact keeps_after history _ _ _ (text?_answer h q)
    · exact ih (h.answer q) e he

/-- One more item counts unless it has occurred. -/
theorem eraseDups_concat {α : Type} [DecidableEq α] (l : List α) (a : α) :
    (l ++ [a]).eraseDups = l.eraseDups ++ if a ∈ l then [] else [a] := by
  rw [List.eraseDups_append, List.cons_removeAll, List.nil_removeAll]
  by_cases h : a ∈ l
  · simp [h]
  · simp [h, List.eraseDups_cons]

/-- The answers, in the order in which they first occur, are all positions in order. -/
theorem answers_eraseDups (history : List Request) :
    ((({} : SymbolTable).log history).map (·.2)).eraseDups =
      (List.range (({} : SymbolTable).after history).size).map Symbol.mk := by
  induction history using List.reverseRecOn with
  | nil => rfl
  | append_singleton history q ih =>
    have hnewest : (({} : SymbolTable).after history).Newest := newest_empty.after history
    -- what has been given out is what lies below the size
    have hmem : ∀ s, s ∈ (({} : SymbolTable).log history).map (·.2) ↔ s.id < (({} : SymbolTable).after history).size := by
      intro s
      rw [← List.mem_eraseDups, ih, List.mem_map]
      constructor
      · rintro ⟨i, hi, rfl⟩
        exact List.mem_range.mp hi
      · intro hs
        exact ⟨s.id, List.mem_range.mpr hs, rfl⟩
    rw [log_append, List.map_append, after_append]
    show (_ ++ [(SymbolTable.answer _ q).1]).eraseDups = (List.range (SymbolTable.answer _ q).2.size).map _
    rw [eraseDups_concat, ih]
    -- a fresh symbol has not been given out before, and one that is found has been
    rcases (({} : SymbolTable).after history).answer_cases q with ⟨he, -⟩ | ⟨s, -, hl, he⟩
    · have hnew : (⟨(({} : SymbolTable).after history).size⟩ : Symbol) ∉ (({} : SymbolTable).log history).map (·.2) := by
        rw [hmem]
        exact Nat.lt_irrefl _
      rw [he, size_insert, List.range_succ, List.map_append]
      exact congrArg (_ ++ ·) (if_neg hnew)
    · have hold : s ∈ (({} : SymbolTable).log history).map (·.2) :=
        (hmem s).mpr (id_lt_of_text? ((hnewest _ _).mp hl).1)
      rw [he, if_pos hold, List.append_nil]

/-- Looking for a symbol keeps one symbol for each text. -/
theorem Faithful.answer (h : t.Faithful) (hq : q.isIntern) : (t.answer q).2.Faithful := by
  cases q with
  | insert text => cases hq
  | intern text => exact (h.intern text).1

/-- If requests only look for symbols, there is still one symbol for each text. -/
theorem Faithful.after (history : List Request) :
    ∀ {t : SymbolTable}, t.Faithful → (∀ q ∈ history, q.isIntern) → (t.after history).Faithful := by
  induction history with
  | nil => exact fun h _ => h
  | cons q history ih =>
    intro t h hall
    exact ih (h.answer (hall q List.mem_cons_self)) fun q' hq' => hall q' (List.mem_cons_of_mem _ hq')

/-- If requests only look for symbols, the texts of the table are the texts of the requests, in the order in which they first
occur. -/
theorem texts_eraseDups (history : List Request) : (∀ q ∈ history, q.isIntern) →
    (({} : SymbolTable).after history).texts.toList = (history.map Request.text).eraseDups := by
  induction history using List.reverseRecOn with
  | nil => exact fun _ => rfl
  | append_singleton history q ih =>
    intro hall
    have hfront := ih fun q' hq' => hall q' (List.mem_append_left _ hq')
    have hq : q.isIntern := hall q (List.mem_append_right _ List.mem_cons_self)
    have hnone := lookup_after_eq_none history q.text {}
    rw [List.map_append, List.map_singleton, eraseDups_concat, ← hfront, after_append]
    show (SymbolTable.answer _ q).2.texts.toList = _
    -- a text is new to the table if and only if no request has been about it
    rcases (({} : SymbolTable).after history).answer_cases q with ⟨he, hl⟩ | ⟨s, -, hl, he⟩
    · have hnew : q.text ∉ history.map Request.text := by
        intro hm
        obtain ⟨q', hq', hsame⟩ := List.mem_map.mp hm
        exact (hnone.mp (hl hq)).2 q' hq' hsame
      rw [he, if_neg hnew]
      exact Array.toList_push
    · have hold : q.text ∈ history.map Request.text := by
        refine Decidable.byContradiction fun hm => ?_
        have hl' := hnone.mpr ⟨rfl, fun q' hq' hsame => hm (List.mem_map.mpr ⟨q', hq', hsame⟩)⟩
        rw [hl] at hl'
        cases hl'
      rw [he, if_pos hold, List.append_nil]

/-- Looking for the symbol of a text adds one if no request was about the text, and else it changes nothing. -/
theorem intern_after_iff {history : List Request} (ht : t = ({} : SymbolTable).after history) (text : String) :
    ((t.intern text).2.size = t.size + 1 ↔ ∀ q ∈ history, q.text ≠ text) ∧
    ((t.intern text).2 = t ↔ ∃ q ∈ history, q.text = text) := by
  have hnone : t.lookup text = none ↔ ∀ q ∈ history, q.text ≠ text := by
    rw [ht, lookup_after_eq_none]
    exact and_iff_right rfl
  -- the table grows or it stays as it is, and cannot do both
  rcases t.answer_cases (.intern text) with ⟨he, hl⟩ | ⟨s, -, hl, he⟩
  · have hnew : ∀ q ∈ history, q.text ≠ text := hnone.mp (hl rfl)
    have hsize : (t.intern text).2.size = t.size + 1 := (congrArg (·.2.size) he).trans (size_insert t text)
    refine ⟨iff_of_true hsize hnew, iff_of_false (fun hsame => ?_) fun ⟨q, hq, hqt⟩ => hnew q hq hqt⟩
    rw [hsame] at hsize
    omega
  · have hsame : (t.intern text).2 = t := congrArg (·.2) he
    have hold : ¬ ∀ q ∈ history, q.text ≠ text := by
      rw [← hnone]
      exact fun hl' => nomatch hl.symm.trans hl'
    refine ⟨iff_of_false (fun hsize => ?_) hold, iff_of_true hsame (by simpa using hold)⟩
    rw [hsame] at hsize
    omega

/-- **A symbol table is an index of what it was asked.**  After any requests to an empty table, nothing is found for a text if
and only if no request was about it, and what is found else is the greatest of the symbols that stand for the text.  What a
request was answered with stands for its text from then on.  An insertion always adds the next position, looking for a symbol
adds one if and only if no request was about the text, and so the symbols given out are 0, 1, 2, ... in order, as many as the
table counts.  If the requests only looked for symbols, symbols and texts are in bijection: two requests have the same answer
if and only if they are about the same text, and the texts by position are the distinct texts in order. -/
theorem after_indexes (history : List Request) (t : SymbolTable) (ht : t = ({} : SymbolTable).after history) :
    (∀ text, t.lookup text = none ↔ ∀ q ∈ history, q.text ≠ text) ∧
    (∀ text s, t.lookup text = some s ↔ t.text? s = some text ∧ ∀ s', t.text? s' = some text → s'.id ≤ s.id) ∧
    (∀ e ∈ ({} : SymbolTable).log history, ∀ later, (t.after later).text? e.2 = some e.1.text) ∧
    (∀ text, (t.insert text).1 = ⟨t.size⟩ ∧ (t.insert text).2.size = t.size + 1) ∧
    (∀ text, ((t.intern text).2.size = t.size + 1 ↔ ∀ q ∈ history, q.text ≠ text) ∧
      ((t.intern text).2 = t ↔ ∃ q ∈ history, q.text = text)) ∧
    ((({} : SymbolTable).log history).map (·.2)).eraseDups = (List.range t.size).map Symbol.mk ∧
    ((∀ q ∈ history, q.isIntern) →
      (∀ e ∈ ({} : SymbolTable).log history, ∀ e' ∈ ({} : SymbolTable).log history, e.2 = e'.2 ↔ e.1.text = e'.1.text) ∧
      t.texts.toList = (history.map Request.text).eraseDups) := by
  subst ht
  have hlog := text?_of_log history newest_empty
  refine ⟨fun text => ?_, newest_empty.after history, fun e he later => ?_, fun text => ⟨rfl, size_insert _ text⟩,
    intern_after_iff rfl, answers_eraseDups history, fun hall => ⟨fun e he e' he' => ?_, ?_⟩⟩
  · rw [lookup_after_eq_none]
    exact and_iff_right rfl
  · exact keeps_after later _ _ _ (hlog e he)
  · have htext := hlog e he
    have htext' := hlog e' he'
    -- one symbol shows one text; one text has one symbol, as all symbols were interned
    constructor
    · intro hsame
      rw [hsame] at htext
      exact Option.some.inj (htext.symm.trans htext')
    · intro hsame
      rw [← hsame] at htext'
      exact (faithful_empty.after history hall).symbol_unique htext htext'
  · exact texts_eraseDups history hall

/-- A text that is found, and hidden by a fresh symbol afterwards. -/
def hiddenSum : List Request := [.intern "sum", .intern "arg", .intern "sum", .insert "sum", .intern "sum"]

theorem hiddenSum_indexes : ∃ t : SymbolTable, t = ({} : SymbolTable).after hiddenSum ∧ t.size = 3 ∧
    (({} : SymbolTable).log hiddenSum).map (·.2) = [⟨0⟩, ⟨1⟩, ⟨0⟩, ⟨2⟩, ⟨2⟩] ∧
    t.lookup "sum" = some ⟨2⟩ ∧ t.lookup "i" = none ∧ t.text? ⟨0⟩ = some "sum" ∧ (t.intern "i").2.size = 4 := by
  obtain ⟨hunknown, hnewest, hstands, -, hadds, -, -⟩ := after_indexes hiddenSum _ rfl
  refine ⟨_, rfl, by decide, by decide, ?_, ?_, ?_, ?_⟩
  · exact (hnewest "sum" ⟨2⟩).mpr ⟨rfl, fun s' hs' => Nat.le_of_lt_succ (id_lt_of_text? hs')⟩
  · exact (hunknown "i").mpr (by decide)
  · exact hstands (.intern "sum", ⟨0⟩) (by decide) []
  · exact (hadds "i").1.mpr (by decide)

end SeedCorpus.SymbolTable
