import SplitBill.Js.Str

/-!
# Reading HTML

The tokens of an HTML text, as the tokenizer of a browser that starts in the data state finds them:
text, tags with their attributes, and comments and declarations. Texts of attributes are left as
they are written, and no element switches the tokenizer to raw text.

`opensMarkup` says of a text that a `<` in it begins something other than text. A text that is read
from the data state becomes text as a whole exactly if it opens no markup (`pieces_text_iff`).
-/

namespace SplitBill.Html

open Js

/-- A tag, as far as it has been read. -/
structure Tag where
  closing : Bool
  name : Str
  attributes : List (Str × Str) := []
  selfClosing : Bool := false
  deriving DecidableEq

/-- What a text consists of. A comment and a declaration are not told apart, and `</>` is
nothing. -/
inductive Piece
  | text (u : UInt16)
  | tag (t : Tag)
  | comment
  | nothing
  deriving DecidableEq

/-- A piece that is no text. -/
def Piece.isMarkup : Piece → Bool
  | text _ => false
  | _ => true

/-- The tag that a piece is. -/
def Piece.tag? : Piece → Option Tag
  | tag t => some t
  | _ => none

/-- How the value of an attribute ends. -/
inductive Quoting
  | double
  | single
  | bare
  deriving DecidableEq

/-- The states of the tokenizer. -/
inductive Mode
  | data
  | tagOpen
  | endTagOpen
  | tagName (t : Tag)
  | beforeAttribute (t : Tag)
  | attributeName (t : Tag) (name : Str)
  | afterName (t : Tag) (name : Option Str)
  | beforeValue (t : Tag) (name : Str)
  | value (t : Tag) (name value : Str) (quoting : Quoting)
  | afterValue (t : Tag)
  | selfClosing (t : Tag)
  | bogusComment
  | declaration
  | declarationDash
  | commentStart
  | commentStartDash
  | comment
  | commentDash
  | commentEnd
  | commentEndBang
  deriving DecidableEq

/-- `<`. -/
def lt : UInt16 := 60

/-- `>`. -/
def gt : UInt16 := 62

/-- `/`. -/
def slash : UInt16 := 47

/-- A letter of the alphabet. -/
def isLetter (u : UInt16) : Bool := (97 ≤ u && u ≤ 122) || (65 ≤ u && u ≤ 90)

/-- A tab, a line feed, a form feed, a carriage return or a space. -/
def isSpace (u : UInt16) : Bool := u == 9 || u == 10 || u == 12 || u == 13 || u == 32

/-- A capital letter in lower case. -/
def lower (u : UInt16) : UInt16 := if 65 ≤ u ∧ u ≤ 90 then u + 32 else u

/-- One more attribute. Of two with one name the first one counts. -/
def Tag.add (t : Tag) (name value : Str) : Tag :=
  if t.attributes.any (·.1 = name) then t
  else { t with attributes := t.attributes ++ [(name, value)] }

/-- The name of an attribute, if one has been read, without a value. -/
def Tag.flush (t : Tag) : Option Str → Tag
  | some name => t.add name []
  | none => t

namespace Mode

/-- The data state. -/
def stepData (u : UInt16) : Mode × List Piece :=
  if u = lt then (tagOpen, []) else (data, [.text u])

/-- The state behind the name of an attribute, and where another one may begin. -/
def stepAfterName (t : Tag) (name : Option Str) (u : UInt16) : Mode × List Piece :=
  if isSpace u = true then (afterName t name, [])
  else if u = slash then (selfClosing (t.flush name), [])
  else if u = gt then (data, [.tag (t.flush name)])
  else match name with
    | some name =>
      if u = 61 then (beforeValue t name, []) else (attributeName (t.add name []) [lower u], [])
    | none => (attributeName t [lower u], [])

/-- Reads one more unit: the next state, and what is found by it. -/
def step : Mode → UInt16 → Mode × List Piece
  | data, u => stepData u
  | tagOpen, u =>
    if isLetter u = true then (tagName { closing := false, name := [lower u] }, [])
    else if u = slash then (endTagOpen, [])
    else if u = 33 then (declaration, [])
    else if u = 63 then (bogusComment, [])
    else ((stepData u).1, .text lt :: (stepData u).2)
  | endTagOpen, u =>
    if isLetter u = true then (tagName { closing := true, name := [lower u] }, [])
    else if u = gt then (data, [.nothing])
    else (bogusComment, [])
  | tagName t, u =>
    if isSpace u = true then (beforeAttribute t, [])
    else if u = slash then (selfClosing t, [])
    else if u = gt then (data, [.tag t])
    else (tagName { t with name := t.name ++ [lower u] }, [])
  | beforeAttribute t, u => stepAfterName t none u
  | attributeName t name, u =>
    if isSpace u = true ∨ u = slash ∨ u = gt then stepAfterName t (some name) u
    else if u = 61 then (beforeValue t name, [])
    else (attributeName t (name ++ [lower u]), [])
  | afterName t name, u => stepAfterName t name u
  | beforeValue t name, u =>
    if isSpace u = true then (beforeValue t name, [])
    else if u = 34 then (value t name [] .double, [])
    else if u = 39 then (value t name [] .single, [])
    else if u = gt then (data, [.tag (t.add name [])])
    else (value t name [u] .bare, [])
  | value t name v .double, u =>
    if u = 34 then (afterValue (t.add name v), []) else (value t name (v ++ [u]) .double, [])
  | value t name v .single, u =>
    if u = 39 then (afterValue (t.add name v), []) else (value t name (v ++ [u]) .single, [])
  | value t name v .bare, u =>
    if isSpace u = true then (beforeAttribute (t.add name v), [])
    else if u = gt then (data, [.tag (t.add name v)])
    else (value t name (v ++ [u]) .bare, [])
  | afterValue t, u => stepAfterName t none u
  | selfClosing t, u =>
    if u = gt then (data, [.tag { t with selfClosing := true }]) else stepAfterName t none u
  | bogusComment, u => if u = gt then (data, [.comment]) else (bogusComment, [])
  | declaration, u =>
    if u = 45 then (declarationDash, []) else if u = gt then (data, [.comment])
    else (bogusComment, [])
  | declarationDash, u =>
    if u = 45 then (commentStart, []) else if u = gt then (data, [.comment])
    else (bogusComment, [])
  | commentStart, u =>
    if u = 45 then (commentStartDash, []) else if u = gt then (data, [.comment])
    else (comment, [])
  | commentStartDash, u =>
    if u = 45 then (commentEnd, []) else if u = gt then (data, [.comment]) else (comment, [])
  | comment, u => if u = 45 then (commentDash, []) else (comment, [])
  | commentDash, u => if u = 45 then (commentEnd, []) else (comment, [])
  | commentEnd, u =>
    if u = gt then (data, [.comment]) else if u = 33 then (commentEndBang, [])
    else if u = 45 then (commentEnd, []) else (comment, [])
  | commentEndBang, u =>
    if u = gt then (data, [.comment]) else if u = 45 then (commentDash, []) else (comment, [])

/-- What is found at the end of the text. A tag that is not closed is lost. -/
def finish : Mode → List Piece
  | tagOpen => [.text lt]
  | endTagOpen => [.text lt, .text slash]
  | bogusComment | declaration | declarationDash | commentStart | commentStartDash | comment
  | commentDash | commentEnd | commentEndBang => [.comment]
  | _ => []

/-- The state behind a text. -/
def after (m : Mode) (s : Str) : Mode := s.foldl (fun m u => (m.step u).1) m

/-- What is found in a text that may go on. -/
def read : Mode → Str → List Piece
  | _, [] => []
  | m, u :: s => (m.step u).2 ++ read (m.step u).1 s

/-- What is found in a text that ends. -/
def pieces : Mode → Str → List Piece
  | m, [] => m.finish
  | m, u :: s => (m.step u).2 ++ pieces (m.step u).1 s

end Mode

/-- The pieces of a text. -/
def pieces (html : Str) : List Piece := Mode.data.pieces html

/-- The tags of a text, with their attributes. -/
def tags (html : Str) : List Tag := (pieces html).filterMap Piece.tag?

example : tags (str "<p>a < b</p><!-- <i> --><br/><img src=x alt=\"a>b\">") =
    [⟨false, str "p", [], false⟩, ⟨true, str "p", [], false⟩, ⟨false, str "br", [], true⟩,
      ⟨false, str "img", [(str "src", str "x"), (str "alt", str "a>b")], false⟩] := by decide

/-! ## Reading piece by piece -/

namespace Mode

variable {m : Mode} {u : UInt16} {s t : Str}

/-- The mode after two texts. -/
theorem after_append (m : Mode) (s t : Str) : m.after (s ++ t) = (m.after s).after t :=
  List.foldl_append

/-- The pieces of two texts one after the other, short of the end of the first. -/
theorem pieces_append (m : Mode) (s t : Str) :
    m.pieces (s ++ t) = m.read s ++ (m.after s).pieces t := by
  induction s generalizing m with
  | nil => rfl
  | cons u s ih =>
    rw [List.cons_append]
    unfold read
    rw [List.append_assoc]
    exact congrArg _ (ih _)

/-- The states within a piece that is no text. -/
def InMarkup : Mode → Prop
  | data | tagOpen | endTagOpen => False
  | _ => True

/-- A unit within a piece goes on with the piece or ends it. -/
def Marks (r : Mode × List Piece) : Prop :=
  (r.2 = [] ∧ r.1.InMarkup) ∨ ∃ p, r.2 = [p] ∧ p.isMarkup = true

/-- A step that stays inside the markup marks nothing. -/
theorem marks_next {m : Mode} (h : m.InMarkup) : Marks (m, []) := .inl ⟨rfl, h⟩

/-- A step that ends the markup marks its piece. -/
theorem marks_end {m : Mode} {p : Piece} (h : p.isMarkup = true) : Marks (m, [p]) :=
  .inr ⟨p, rfl, h⟩

/-- Every way on from a tag's name marks. -/
theorem marks_stepAfterName (tag : Tag) (name : Option Str) (u : UInt16) :
    Marks (stepAfterName tag name u) := by
  unfold stepAfterName
  by_cases hspace : isSpace u = true
  · rw [if_pos hspace]
    exact marks_next trivial
  by_cases hslash : u = slash
  · rw [if_neg hspace, if_pos hslash]
    exact marks_next trivial
  by_cases hgt : u = gt
  · rw [if_neg hspace, if_neg hslash, if_pos hgt]
    exact marks_end rfl
  rw [if_neg hspace, if_neg hslash, if_neg hgt]
  cases name with
  | none => exact marks_next trivial
  | some name =>
    simp only
    split_ifs
    · exact marks_next trivial
    · exact marks_next trivial

/-- **Every step inside the markup marks.** -/
theorem marks_step (h : m.InMarkup) (u : UInt16) : Marks (m.step u) := by
  cases m with
  | data => exact h.elim
  | tagOpen => exact h.elim
  | endTagOpen => exact h.elim
  | beforeAttribute tag => exact marks_stepAfterName tag none u
  | afterName tag name => exact marks_stepAfterName tag name u
  | afterValue tag => exact marks_stepAfterName tag none u
  | attributeName tag name =>
    simp only [step]
    split_ifs
    · exact marks_stepAfterName tag (some name) u
    · exact marks_next trivial
    · exact marks_next trivial
  | selfClosing tag =>
    simp only [step]
    split_ifs
    · exact marks_end rfl
    · exact marks_stepAfterName tag none u
  | value tag name v quoting =>
    cases quoting <;> simp only [step] <;> split_ifs <;>
      first | exact marks_next trivial | exact marks_end rfl
  | _ =>
    simp only [step]
    split_ifs <;> first | exact marks_next trivial | exact marks_end rfl

/-- What is unfinished at the end of the text is markup. -/
theorem isMarkup_of_finish (h : m.InMarkup) : ∀ p ∈ m.finish, p.isMarkup = true := by
  cases m with
  | data => exact h.elim
  | tagOpen => exact h.elim
  | endTagOpen => exact h.elim
  | _ =>
    unfold finish
    simp [Piece.isMarkup]

/-- What is found first behind the beginning of a piece that is no text is no text. -/
theorem isMarkup_of_inMarkup (h : m.InMarkup) (s : Str) {p : Piece} {rest : List Piece}
    (hp : m.pieces s = p :: rest) : p.isMarkup = true := by
  induction s generalizing m with
  | nil =>
    have hfinish : m.finish = p :: rest := hp
    exact isMarkup_of_finish h p (hfinish ▸ List.mem_cons_self)
  | cons u s ih =>
    unfold pieces at hp
    rcases marks_step h u with ⟨hnil, hin⟩ | ⟨q, hq, hmarkup⟩
    · rw [hnil, List.nil_append] at hp
      exact ih hin hp
    · rw [hq, List.singleton_append] at hp
      rw [← (List.cons.inj hp).1]
      exact hmarkup

end Mode

/-! ## Text -/

/-- Behind a `<`, the beginning of a tag, a comment or a declaration. -/
def isOpener (u : UInt16) : Bool := isLetter u || u == slash || u == 33 || u == 63

/-- A `<` in the text begins something other than text. -/
def opensMarkup : Str → Bool
  | u :: w :: s => (u == lt && isOpener w) || opensMarkup (w :: s)
  | _ => false

section

variable {c u : UInt16} {s rest before : Str}

/-- In text, a unit other than `<` is text. -/
theorem pieces_data_of_ne (h : u ≠ lt) (s : Str) :
    Mode.data.pieces (u :: s) = .text u :: Mode.data.pieces s := by
  have hstep : Mode.data.step u = (.data, [.text u]) := if_neg h
  unfold Mode.pieces
  rw [hstep]
  cases s <;> rfl

/-- A `<` without an opener behind it is text. -/
theorem pieces_tagOpen (h : isOpener u = false) (s : Str) :
    Mode.tagOpen.pieces (u :: s) = .text lt :: Mode.data.pieces (u :: s) := by
  unfold isOpener at h
  simp only [Bool.or_eq_false_iff, beq_eq_false_iff_ne] at h
  obtain ⟨⟨⟨hletter, hslash⟩, hbang⟩, hquestion⟩ := h
  have hstep : Mode.tagOpen.step u = ((Mode.stepData u).1, .text lt :: (Mode.stepData u).2) := by
    simp only [Mode.step, hletter, Bool.false_eq_true, if_false, if_neg hslash, if_neg hbang,
      if_neg hquestion]
  calc Mode.tagOpen.pieces (u :: s)
      = (Mode.tagOpen.step u).2 ++ (Mode.tagOpen.step u).1.pieces s := rfl
    _ = .text lt :: Mode.data.pieces (u :: s) := by
        rw [hstep]
        rfl

/-- What opens no markup is text, before a unit that opens none. -/
theorem pieces_of_plain (h : opensMarkup s = false) (hc : isOpener c = false) (rest : Str) :
    Mode.data.pieces (s ++ c :: rest) = s.map .text ++ Mode.data.pieces (c :: rest) := by
  fun_induction opensMarkup s with
  | case1 u w s ih =>
    rw [Bool.or_eq_false_iff] at h
    obtain ⟨hu, hrest⟩ := h
    have ih := ih hrest
    by_cases hlt : u = lt
    · -- The `<` is held back until the next unit shows that it is text.
      have hw : isOpener w = false := by simpa [hlt] using hu
      calc Mode.data.pieces (u :: (w :: s ++ c :: rest))
          = Mode.tagOpen.pieces (w :: (s ++ c :: rest)) := by rw [hlt]; rfl
        _ = .text lt :: Mode.data.pieces (w :: s ++ c :: rest) := pieces_tagOpen hw _
        _ = (u :: w :: s).map .text ++ Mode.data.pieces (c :: rest) := by rw [ih, hlt]; rfl
    · have hread := pieces_data_of_ne hlt (w :: s ++ c :: rest)
      rw [ih] at hread
      exact hread
  | case2 s hs =>
    cases s with
    | nil => rfl
    | cons u s =>
      cases s with
      | nil =>
        by_cases hlt : u = lt
        · rw [hlt]
          exact pieces_tagOpen hc rest
        · exact pieces_data_of_ne hlt (c :: rest)
      | cons w s => exact absurd rfl (hs u w s)

/-- What opens markup does so first behind text. -/
theorem exists_opener (h : opensMarkup s = true) :
    ∃ a w b, s = a ++ lt :: w :: b ∧ isOpener w = true ∧ opensMarkup a = false := by
  fun_induction opensMarkup s with
  | case1 u w s ih =>
    by_cases hu : (u == lt && isOpener w) = true
    · rw [Bool.and_eq_true, beq_iff_eq] at hu
      exact ⟨[], w, s, by rw [hu.1]; rfl, hu.2, rfl⟩
    · rw [Bool.or_eq_true, or_iff_right hu] at h
      obtain ⟨a, x, b, hs, hx, ha⟩ := ih h
      refine ⟨u :: a, x, b, by rw [hs]; rfl, hx, ?_⟩
      cases a with
      | nil => rfl
      | cons y a =>
        have hy : w = y := (List.cons.inj hs).1
        subst hy
        unfold opensMarkup
        rw [ha, Bool.eq_false_iff.mpr hu]
        rfl
  | case2 s hs => cases h

/-- Behind `<` and an opener something other than text is found, unless the text ends there. -/
theorem isMarkup_of_opener (hu : isOpener u = true) {s : Str} (hs : s ≠ []) {p : Piece}
    {found : List Piece} (hp : Mode.tagOpen.pieces (u :: s) = p :: found) : p.isMarkup = true := by
  by_cases hletter : isLetter u = true
  · have hstep : Mode.tagOpen.step u = (.tagName { closing := false, name := [lower u] }, []) := by
      simp only [Mode.step, if_pos hletter]
    unfold Mode.pieces at hp
    rw [hstep] at hp
    exact Mode.isMarkup_of_inMarkup (m := .tagName _) trivial s hp
  · unfold isOpener at hu
    simp only [hletter, Bool.false_or, Bool.or_eq_true, beq_iff_eq] at hu
    rcases hu with (rfl | rfl) | rfl
    · -- `</` needs one more unit to become a tag, a comment, or nothing.
      obtain ⟨w, s, rfl⟩ := List.exists_cons_of_ne_nil hs
      have hclose : Mode.tagOpen.pieces (slash :: w :: s) =
        (Mode.endTagOpen.step w).2 ++ (Mode.endTagOpen.step w).1.pieces s := rfl
      rw [hclose] at hp
      simp only [Mode.step] at hp
      split_ifs at hp
      · exact Mode.isMarkup_of_inMarkup (m := .tagName _) trivial s hp
      · rw [← (List.cons.inj hp).1]
        rfl
      · exact Mode.isMarkup_of_inMarkup (m := .bogusComment) trivial s hp
    · exact Mode.isMarkup_of_inMarkup (m := .declaration) trivial s hp
    · exact Mode.isMarkup_of_inMarkup (m := .bogusComment) trivial s hp

/-- The text stands at one place of a page, and there it is read as text. -/
def IsText (page : Str → Str) (s : Str) : Prop :=
  ∃ before after, (∀ s, page s = before ++ s ++ after) ∧
    ∃ found, pieces (page s) = Mode.data.read before ++ s.map .text ++ found

/-- The place of the text is determined by the page. -/
theorem place_unique {before' after after' : Str}
    (h : ∀ s, before ++ s ++ after = before' ++ s ++ after') : before = before' := by
  have hle : ∀ {b b' a a' : Str}, (∀ s, b ++ s ++ a = b' ++ s ++ a') → b'.length ≤ b.length := by
    intro b b' a a' h
    by_contra hlt
    -- A single unit would stand behind `b`, where `b'` has one of its own.
    have hunit : ∀ u : UInt16, b'[b.length]? = some u := by
      intro u
      have hleft : (b ++ [u] ++ a)[b.length]? = some u := by simp
      have hright : (b' ++ [u] ++ a')[b.length]? = b'[b.length]? := by
        rw [List.append_assoc, List.getElem?_append_left (by omega)]
      rw [← hright, ← h [u], hleft]
    have h01 := (hunit 0).symm.trans (hunit 1)
    cases h01
  have hlength : before.length = before'.length :=
    Nat.le_antisymm (hle fun s => (h s).symm) (hle h)
  have hnil := h []
  rw [List.append_assoc, List.append_assoc] at hnil
  exact (List.append_inj hnil hlength).1

section

variable {page : Str → Str} (hpage : ∀ s, page s = before ++ s ++ c :: rest)
  (hbefore : Mode.data.after before = .data) (hc : isOpener c = false)

include hpage hbefore

/-- A page, up to the place where the text is inserted. -/
theorem pieces_page (s : Str) :
    pieces (page s) = Mode.data.read before ++ Mode.data.pieces (s ++ c :: rest) := by
  unfold pieces
  rw [hpage, List.append_assoc, Mode.pieces_append, hbefore]

/-- A text that leaves the tokenizer in the data state adds its own tags to those of a page. -/
theorem tags_of_after (h : Mode.data.after s = .data) :
    tags (page s) = (Mode.data.read before).filterMap Piece.tag? ++
      (Mode.data.read s).filterMap Piece.tag? ++ tags (c :: rest) := by
  unfold tags
  rw [pieces_page hpage hbefore, Mode.pieces_append, h, List.filterMap_append,
    List.filterMap_append, List.append_assoc]
  rfl

include hc

/-- A text is read as text exactly if it opens no markup. -/
theorem isText_iff : IsText page s ↔ opensMarkup s = false := by
  constructor
  · rintro ⟨before', after', hplace, found, hfound⟩
    have hb : before = before' := place_unique fun s => (hpage s).symm.trans (hplace s)
    rw [pieces_page hpage hbefore, ← hb, List.append_assoc] at hfound
    have hpieces := List.append_cancel_left hfound
    by_contra hopens
    rw [Bool.not_eq_false] at hopens
    obtain ⟨a, u, b, rfl, hu, ha⟩ := exists_opener hopens
    have hread : Mode.data.pieces ((a ++ lt :: u :: b) ++ c :: rest) =
        a.map .text ++ Mode.tagOpen.pieces (u :: (b ++ c :: rest)) := by
      rw [List.append_assoc]
      exact pieces_of_plain ha rfl _
    rw [hread, List.map_append, List.append_assoc] at hpieces
    exact Bool.false_ne_true
      (isMarkup_of_opener hu (by simp) (List.append_cancel_left hpieces))
  · intro h
    refine ⟨before, c :: rest, hpage, Mode.data.pieces (c :: rest), ?_⟩
    rw [pieces_page hpage hbefore, pieces_of_plain h hc, List.append_assoc]

/-- Text has no part in the tags of a page. -/
theorem tags_of_plain (h : opensMarkup s = false) :
    tags (page s) = (Mode.data.read before).filterMap Piece.tag? ++ tags (c :: rest) := by
  have htext : (s.map Piece.text).filterMap Piece.tag? = [] := by
    rw [List.filterMap_map]
    exact List.filterMap_eq_nil_iff.mpr fun u _ => rfl
  unfold tags
  rw [pieces_page hpage hbefore, pieces_of_plain h hc, List.filterMap_append,
    List.filterMap_append, htext, List.nil_append]
  rfl

end

end

end SplitBill.Html
