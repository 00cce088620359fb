import SplitBill.Api.Schemas
import SplitBill.Email.Templates

/-!
# The links of mails

A verification or a reset is asked for by a link: random bytes are written as a token, the token is
put into an address, and the address into the page of a mail. Unless the names in the page open
markup of their own, whoever reads it finds that one link in it, and the token in it is one that the
endpoints accept and that stands for those bytes.
-/

namespace SplitBill.Email

open Js Html

/-! ## The code -/

/-- `AUTH_TOKEN_BYTES`. -/
def authTokenBytes : ℕ := 32

/-- `generateAuthToken`, for what `randomBytes` gives. -/
def generateAuthToken (randomBytes : Vector UInt8 authTokenBytes) : Str :=
  base64url randomBytes.toList

/-- The mails with an action link. -/
inductive ActionMail
  | verification
  | passwordReset
  deriving DecidableEq

/-- The page of the application that an action link opens. -/
def ActionMail.path : ActionMail → Str
  | verification => str "/verify-email?token="
  | passwordReset => str "/reset-password?token="

/-- `emailVerificationUrl` and `passwordResetUrl`. -/
def ActionMail.url (env : MailEnv) : ActionMail → Str → Option Str
  | verification => emailVerificationUrl env
  | passwordReset => passwordResetUrl env

/-- What `trySendVerificationEmail` and `trySendPasswordResetEmail` hand to the provider: nothing
where the address cannot be made. -/
def ActionMail.trySend (lib : Numerals) (env : MailEnv) (recipient userName rawToken : Str) :
    ActionMail → Option EmailMessage
  | verification => (emailVerificationUrl env rawToken).map fun url =>
    sendVerificationEmail lib env recipient url userName
  | passwordReset => (passwordResetUrl env rawToken).map fun url =>
    sendPasswordResetEmail lib env recipient url userName

/-- Where the links among the pieces lead. -/
def linksOf (found : List Piece) : List (Option Str) :=
  ((found.filterMap Piece.tag?).filter fun t => t.name = str "a" && !t.closing).map
    (·.attributes.lookup (str "href"))

/-- Where the links of a page lead. -/
def links (html : Str) : List (Option Str) := linksOf (pieces html)

/-! ## Tokens -/

/-- A token is not empty. -/
theorem generateAuthToken_ne_nil (randomBytes : Vector UInt8 authTokenBytes) :
    generateAuthToken randomBytes ≠ [] := by
  refine base64url_ne_nil fun h => ?_
  have hlength := congrArg List.length h
  rw [Vector.length_toList] at hlength
  exact absurd hlength (by decide)

/-- A token is accepted as it is. -/
theorem parse_generateAuthToken {z : Zod} (hz : z.Documented)
    (randomBytes : Vector UInt8 authTokenBytes) :
    z.parse Api.authTokenSchema (some (.string (generateAuthToken randomBytes))) =
      .ok (some (.string (generateAuthToken randomBytes))) := by
  have hne := generateAuthToken_ne_nil randomBytes
  have hlength : 1 ≤ (generateAuthToken randomBytes).length := List.length_pos_of_ne_nil hne
  have hall : (generateAuthToken randomBytes).all isBase64url = true :=
    List.all_eq_true.mpr (isBase64url_of_mem randomBytes.toList)
  refine hz.string.mpr ⟨_, rfl, ⟨decide_eq_true hlength, ?_, trivial⟩, rfl⟩
  exact Bool.and_eq_true_iff.mpr ⟨decide_eq_true hne, hall⟩

/-- A token is in the address as it is. -/
theorem url_generateAuthToken (env : MailEnv) (mail : ActionMail)
    (randomBytes : Vector UInt8 authTokenBytes) :
    mail.url env (generateAuthToken randomBytes) =
      some (appBaseUrl env ++ mail.path ++ generateAuthToken randomBytes) := by
  have hencode : encodeURIComponent (generateAuthToken randomBytes) =
      some (generateAuthToken randomBytes) :=
    encodeURIComponent_of_isUnreserved fun u hu =>
      isUnreserved_of_isBase64url (isBase64url_of_mem _ u hu)
  cases mail with
  | verification => exact congrArg (Option.map _) hencode
  | passwordReset => exact congrArg (Option.map _) hencode

/-! ## Reading a page -/

/-- The links of the text come first, whatever follows it. -/
def Shows (s : Str) (found : List (Option Str)) : Prop :=
  ∀ rest, links (s ++ rest) = found ++ links rest

section

variable {s t : Str} {found more : List (Option Str)}

/-- The links of two parts. -/
theorem linksOf_append (a b : List Piece) : linksOf (a ++ b) = linksOf a ++ linksOf b := by
  unfold linksOf
  rw [List.filterMap_append, List.filter_append, List.map_append]

/-- A text that shows links, followed by another one. -/
theorem Shows.append (hs : Shows s found) (ht : Shows t more) : Shows (s ++ t) (found ++ more) := by
  intro rest
  rw [List.append_assoc, hs, ht, List.append_assoc]

/-- A text that ends where it began, in the data state. -/
theorem shows_of_after (hafter : Mode.data.after s = .data)
    (hread : linksOf (Mode.data.read s) = found) : Shows s found := by
  intro rest
  change linksOf (Mode.data.pieces (s ++ rest)) = _
  rw [Mode.pieces_append, hafter, linksOf_append, hread]
  rfl

/-- A text that opens no markup shows no links, before a unit that opens none. -/
theorem Shows.plain (ht : Shows t found) (hopener : t.head?.map isOpener = some false)
    (h : opensMarkup s = false) : Shows (s ++ t) found := by
  obtain _ | ⟨c, t⟩ := t
  · cases hopener
  have hc : isOpener c = false := Option.some.inj hopener
  intro rest
  have hpage : ∀ name : Str, name ++ c :: (t ++ rest) = [] ++ name ++ c :: (t ++ rest) :=
    fun _ => rfl
  have htags : tags (s ++ c :: (t ++ rest)) = tags (c :: (t ++ rest)) :=
    tags_of_plain hpage rfl hc h
  have hlinks : links (s ++ c :: (t ++ rest)) = links (c :: (t ++ rest)) :=
    congrArg (fun found => (found.filter fun t => t.name = str "a" && !t.closing).map
      (·.attributes.lookup (str "href"))) htags
  calc links (s ++ c :: t ++ rest)
      = links (s ++ c :: (t ++ rest)) := by rw [List.append_assoc]; rfl
    _ = links (c :: t ++ rest) := hlinks
    _ = found ++ links rest := ht rest

/-- Within quotes the units of a value are read up to the quote. -/
theorem after_value (tag : Tag) (name value : Str) (h : 34 ∉ s) :
    (Mode.value tag name value .double).after s = .value tag name (value ++ s) .double ∧
      (Mode.value tag name value .double).read s = [] := by
  induction s generalizing value with
  | nil => exact ⟨congrArg (Mode.value tag name · .double) (List.append_nil value).symm, rfl⟩
  | cons u s ih =>
    rw [List.mem_cons, not_or] at h
    have hstep : (Mode.value tag name value .double).step u =
        (.value tag name (value ++ [u]) .double, []) := if_neg (Ne.symm h.1)
    obtain ⟨hafter, hread⟩ := ih (value ++ [u]) h.2
    rw [List.append_assoc, List.singleton_append] at hafter
    constructor
    · calc (Mode.value tag name value .double).after (u :: s)
          = ((Mode.value tag name value .double).step u).1.after s := rfl
        _ = _ := by rw [hstep, hafter]
    · calc (Mode.value tag name value .double).read (u :: s)
          = ((Mode.value tag name value .double).step u).2 ++
            ((Mode.value tag name value .double).step u).1.read s := rfl
        _ = _ := by rw [hstep, hread]; rfl

/-- What is read of a text in two parts. -/
theorem read_append (m : Mode) (s t : Str) : m.read (s ++ t) = m.read s ++ (m.after s).read t := by
  induction s generalizing m with
  | nil => rfl
  | cons u s ih =>
    change (m.step u).2 ++ (m.step u).1.read (s ++ t) = _
    rw [ih, ← List.append_assoc]
    rfl

/-- Lines that show no links show none together, behind another line. -/
theorem shows_lines {lines : List Str} (h : ∀ line ∈ lines, Shows line []) :
    Shows (lines.flatMap (str "\n" ++ ·)) [] := by
  have hbreak : Shows (str "\n") [] := shows_of_after (by decide) (by decide)
  induction lines with
  | nil => exact fun _ => rfl
  | cons line lines ih =>
    rw [List.forall_mem_cons] at h
    exact (hbreak.append h.1).append (ih h.2)

/-- Lines without links. -/
theorem shows_join {lines : List Str} (h : ∀ line ∈ lines, Shows line []) :
    Shows (join (str "\n") lines) [] := by
  obtain _ | ⟨line, lines⟩ := lines
  · exact fun _ => rfl
  · rw [List.forall_mem_cons] at h
    rw [join_cons]
    exact h.1.append (shows_lines h.2)

/-- The links of a page with one line that has any. -/
theorem shows_page {before behind : List Str} {line : Str} (hne : before ≠ [])
    (hbefore : ∀ l ∈ before, Shows l []) (hline : Shows line found)
    (hbehind : ∀ l ∈ behind, Shows l []) :
    Shows (join (str "\n") (before ++ line :: behind)) found := by
  have hbreak : Shows (str "\n") [] := shows_of_after (by decide) (by decide)
  have hrest := hline.append (shows_lines hbehind)
  rw [List.append_nil] at hrest
  rw [join_append hne, join_cons]
  exact ((shows_join hbefore).append hbreak).append hrest

/-- What a text shows are its links. -/
theorem Shows.links (h : Shows s found) : links s = found := by
  have hlinks := h []
  rw [List.append_nil] at hlinks
  exact hlinks.trans (List.append_nil found)

end

/-! ## The page of a mail -/

/-- The look of the button. -/
def buttonStyle : Str :=
  str "background:#2563eb;color:#ffffff;text-decoration:none;padding:12px 24px;" ++
    str "border-radius:6px;display:inline-block"

/-- What is written before and behind the address of the button. -/
def buttonTag : Str × Str :=
  (str "              <td style=\"padding:24px 0\"><a href=\"",
    str "\" style=\"" ++ buttonStyle ++ str "\">")

/-- The button is a link to its address. -/
theorem shows_button {url : Str} (h : 34 ∉ url) :
    Shows (buttonTag.1 ++ url ++ buttonTag.2) [some url] := by
  let a : Tag := ⟨false, str "a", [], false⟩
  let linked : Tag := ⟨false, str "a", [(str "href", url)], false⟩
  -- The tokenizer at each place of the button: before the address, in it, and after it.
  have hopen : Mode.data.after buttonTag.1 = .value a (str "href") [] .double := by decide +kernel
  have hnone : linksOf (Mode.data.read buttonTag.1) = [] := by decide +kernel
  have hhref := after_value a (str "href") [] h
  have hnext : (Mode.value a (str "href") url .double).after (str "\" style=\"") =
      .value linked (str "style") [] .double ∧
      (Mode.value a (str "href") url .double).read (str "\" style=\"") = [] := ⟨rfl, rfl⟩
  have hstyle := after_value linked (str "style") [] (s := buttonStyle) (by decide +kernel)
  have hclose : (Mode.value linked (str "style") buttonStyle .double).after (str "\">") = .data ∧
      (Mode.value linked (str "style") buttonStyle .double).read (str "\">") =
        [.tag ⟨false, str "a", [(str "href", url), (str "style", buttonStyle)], false⟩] :=
    ⟨rfl, rfl⟩
  rw [List.nil_append] at hhref hstyle
  have hafter : Mode.data.after (buttonTag.1 ++ url ++ buttonTag.2) = .data := by
    simp only [buttonTag, Mode.after_append] at hopen ⊢
    rw [hopen, hhref.1, hnext.1, hstyle.1, hclose.1]
  have hread : linksOf (Mode.data.read (buttonTag.1 ++ url ++ buttonTag.2)) = [some url] := by
    simp only [buttonTag, Mode.after_append, read_append, linksOf_append] at hopen hnone ⊢
    rw [hopen, hnone, hhref.1, hhref.2, hnext.1, hnext.2, hstyle.1, hstyle.2, hclose.2]
    rfl
  exact shows_of_after hafter hread

/-- A text without `<` opens no markup. -/
theorem opensMarkup_of_not_mem {s : Str} (h : lt ∉ s) : opensMarkup s = false := by
  by_contra hopens
  rw [Bool.not_eq_false] at hopens
  obtain ⟨a, u, b, rfl, -, -⟩ := exists_opener hopens
  exact h (List.mem_append_right a List.mem_cons_self)

/-- Numbers are written without markup. -/
structure Numerals.Plain (lib : Numerals) : Prop where
  toString : ∀ x, lt ∉ lib.toString x
  toFixed1 : ∀ x, lt ∉ lib.toFixed1 x

/-- The minutes open no markup. -/
theorem Numerals.Plain.formatMinutes {lib : Numerals} (hlib : lib.Plain) (minutes : Double) :
    opensMarkup (formatMinutes lib minutes) = false := by
  -- Neither the words nor the numbers of the text have a `<`.
  have hminute : lt ∉ str " minute" := by decide
  have hhour : lt ∉ str " hour" := by decide
  have hplural : ∀ one : Prop, [Decidable one] → lt ∉ if one then ([] : Str) else str "s" := by
    intro one _
    by_cases h : one
    · rw [if_pos h]
      exact List.not_mem_nil
    · rw [if_neg h]
      decide
  refine opensMarkup_of_not_mem ?_
  unfold Email.formatMinutes
  by_cases hsmall : minutes.lt (.finite 60) = true
  · rw [if_pos hsmall]
    simp only [List.mem_append, not_or]
    exact ⟨⟨hlib.toString _, hminute⟩, hplural _⟩
  · have hnumber : lt ∉ if (lib.div minutes (.finite 60)).isInteger = true
        then lib.toString (lib.div minutes (.finite 60))
        else lib.toFixed1 (lib.div minutes (.finite 60)) := by
      split_ifs
      · exact hlib.toString _
      · exact hlib.toFixed1 _
    rw [if_neg hsmall]
    simp only [List.mem_append, not_or]
    exact ⟨⟨hnumber, hhour⟩, hplural _⟩

/-- A text of the template that ends in the data state and has no links. -/
def Inert (s : Str) : Prop := Mode.data.after s = .data ∧ linksOf (Mode.data.read s) = []

instance (s : Str) : Decidable (Inert s) := inferInstanceAs (Decidable (_ ∧ _))

/-- A text that stays within its own place shows nothing. -/
theorem Inert.shows {s : Str} (h : Inert s) : Shows s [] := shows_of_after h.1 h.2

/-- A text between two texts of the template, the second of which begins with a tag. -/
theorem shows_between {before text after : Str} (hplain : opensMarkup text = false)
    (hbefore : Inert before) (hopener : after.head?.map isOpener = some false)
    (hafter : Inert after) : Shows (before ++ text ++ after) [] := by
  have hrest : Shows (text ++ after) [] := hafter.shows.plain hopener hplain
  rw [List.append_assoc]
  exact hbefore.shows.append hrest

/-- The head of a mail shows no link. -/
theorem shows_headLines {heading : Str} (h : opensMarkup heading = false) :
    ∀ line ∈ headLines heading, Shows line [] := by
  have htop : ∀ line ∈ topLines, Inert line := by decide +kernel
  unfold headLines
  simp only [List.forall_mem_append, List.forall_mem_cons, List.not_mem_nil, false_implies,
    implies_true, and_true]
  exact ⟨fun line hline => (htop line hline).shows,
    shows_between h (by decide +kernel) (by decide) (by decide +kernel),
    Inert.shows (by decide +kernel)⟩

/-- The line of the paragraphs. -/
theorem shows_paragraphs {paragraphs : List Str}
    (h : ∀ p ∈ paragraphs, Shows (str "<p>" ++ p ++ str "</p>") []) :
    Shows (str "            <tr><td>" ++
      join (str "\n") (paragraphs.map fun p => str "<p>" ++ p ++ str "</p>") ++
      str "</td></tr>") [] := by
  have hlines : Shows (join (str "\n") (paragraphs.map fun p => str "<p>" ++ p ++ str "</p>")) [] :=
    shows_join (List.forall_mem_map.mpr h)
  have hopen : Inert (str "            <tr><td>") := by decide +kernel
  have hclose : Inert (str "</td></tr>") := by decide +kernel
  exact (hopen.shows.append hlines).append hclose.shows

/-- The line of the button. -/
theorem shows_buttonLine {buttonLabel buttonUrl : Str} (hlabel : opensMarkup buttonLabel = false)
    (hurl : 34 ∉ buttonUrl) :
    Shows (str "              <td style=\"padding:24px 0\"><a href=\"" ++ buttonUrl ++
      str "\" style=\"background:#2563eb;color:#ffffff;text-decoration:none;padding:12px 24px;" ++
      str "border-radius:6px;display:inline-block\">" ++ buttonLabel ++ str "</a></td>")
      [some buttonUrl] := by
  have hopen : str "              <td style=\"padding:24px 0\"><a href=\"" = buttonTag.1 := rfl
  have hstyle : str "\" style=\"background:#2563eb;color:#ffffff;text-decoration:none;" ++
      str "padding:12px 24px;" ++ str "border-radius:6px;display:inline-block\">" =
        buttonTag.2 := by decide +kernel
  have hpadding : str "\" style=\"background:#2563eb;color:#ffffff;text-decoration:none;" ++
      str "padding:12px 24px;" = str
        "\" style=\"background:#2563eb;color:#ffffff;text-decoration:none;padding:12px 24px;" := by
    decide +kernel
  have hclose : Inert (str "</a></td>") := by decide +kernel
  have hline := (shows_button hurl).append (hclose.shows.plain (by decide) hlabel)
  rw [← hstyle, hpadding] at hline
  rw [hopen]
  simpa only [List.append_assoc, List.append_nil] using hline

/-- The lines behind the button. -/
theorem shows_tailLines {appName buttonUrl : Str} (happ : opensMarkup appName = false)
    (hurl : lt ∉ buttonUrl) (buttonLabel : Str) :
    ∀ line ∈ (tailLines appName buttonLabel buttonUrl).drop 2, Shows line [] := by
  have hconst : ∀ line ∈ [str "            </tr>", str "          </table>", str "        </td>",
      str "      </tr>", str "    </table>", str "  </body>", str "</html>"], Inert line := by
    decide +kernel
  simp only [List.forall_mem_cons, List.not_mem_nil, false_implies, implies_true, and_true]
    at hconst
  obtain ⟨hrow, htable, hcell, hrow', htable', hbody, hpage⟩ := hconst
  unfold tailLines
  simp only [List.drop_succ_cons, List.drop_zero, List.forall_mem_cons, List.not_mem_nil,
    false_implies, implies_true, and_true]
  exact ⟨hrow.shows,
    shows_between (opensMarkup_of_not_mem hurl) (by decide +kernel) (by decide)
      (by decide +kernel),
    shows_between happ (by decide +kernel) (by decide) (by decide +kernel),
    htable.shows, hcell.shows, hrow'.shows, htable'.shows, hbody.shows, hpage.shows⟩

/-- The page links to the address of its button only, if its texts open no markup. -/
theorem links_buildHtml {appName heading buttonLabel buttonUrl : Str} {paragraphs : List Str}
    (happ : opensMarkup appName = false) (hheading : opensMarkup heading = false)
    (hparagraphs : ∀ p ∈ paragraphs, Shows (str "<p>" ++ p ++ str "</p>") [])
    (hlabel : opensMarkup buttonLabel = false) (hquote : 34 ∉ buttonUrl) (hlt : lt ∉ buttonUrl) :
    links (buildHtml appName heading paragraphs buttonLabel buttonUrl) = [some buttonUrl] := by
  have hrow : Inert (str "            <tr>") := by decide +kernel
  have hbefore : ∀ line ∈ headLines heading ++ [str "            <tr><td>" ++
      join (str "\n") (paragraphs.map fun p => str "<p>" ++ p ++ str "</p>") ++
      str "</td></tr>"] ++ [str "            <tr>"], Shows line [] := by
    simp only [List.forall_mem_append, List.forall_mem_singleton]
    exact ⟨⟨shows_headLines hheading, shows_paragraphs hparagraphs⟩, hrow.shows⟩
  have hpage := shows_page (by simp) hbefore (shows_buttonLine hlabel hquote)
    (shows_tailLines happ hlt buttonLabel)
  refine Shows.links ?_
  simpa only [buildHtml, tailLines, List.append_assoc, List.cons_append, List.nil_append,
    List.drop_succ_cons, List.drop_zero] using hpage

/-! ## The links -/

/-- A string that can be quoted and shown. -/
theorem plain_of_all {s : Str} (h : s.all (fun u => u ≠ 34 ∧ u ≠ lt) = true) :
    ∀ u ∈ s, u ≠ 34 ∧ u ≠ lt :=
  fun u hu => of_decide_eq_true (List.all_eq_true.mp h u hu)

/-- The address of an action can be quoted and shown. -/
theorem url_plain {env : MailEnv} (hbase : ∀ u ∈ env.appBaseUrl, u ≠ 34 ∧ u ≠ lt)
    (mail : ActionMail) (randomBytes : Vector UInt8 authTokenBytes) :
    ∀ u ∈ appBaseUrl env ++ mail.path ++ generateAuthToken randomBytes, u ≠ 34 ∧ u ≠ lt := by
  have hpath : ∀ u ∈ mail.path, u ≠ 34 ∧ u ≠ lt := by
    apply plain_of_all
    cases mail with
    | verification => decide +kernel
    | passwordReset => decide +kernel
  simp only [List.forall_mem_append]
  refine ⟨⟨fun u hu => ?_, hpath⟩, fun u hu => ?_⟩
  · unfold appBaseUrl at hu
    exact hbase u (List.mem_reverse.mp ((List.dropWhile_suffix _).subset (List.mem_reverse.mp hu)))
  · have hunit := isBase64url_of_mem _ u hu
    constructor
    · rintro rfl
      exact absurd hunit (by decide)
    · rintro rfl
      exact absurd hunit (by decide)

section

variable {lib : Numerals} {z : Zod} {env : MailEnv} {userName : Str}

/-- The paragraphs of both mails. -/
theorem shows_paragraph {before text after : Str} (hplain : opensMarkup text = false)
    (hbefore : Inert (str "<p>" ++ before)) (hopener : after.head?.map isOpener = some false)
    (hafter : Inert (after ++ str "</p>")) :
    Shows (str "<p>" ++ (before ++ text ++ after) ++ str "</p>") [] := by
  have hopener' : (after ++ str "</p>").head?.map isOpener = some false := by
    cases after with
    | nil => cases hopener
    | cons u s => exact hopener
  have h := shows_between hplain hbefore hopener' hafter
  simpa only [List.append_assoc] using h

/-- The mail of either kind links to the address of its action only. -/
theorem links_trySend (hlib : lib.Plain) (happ : opensMarkup env.appName = false)
    (hname : opensMarkup userName = false) (hbase : ∀ u ∈ env.appBaseUrl, u ≠ 34 ∧ u ≠ lt)
    (recipient : Str) (mail : ActionMail) (randomBytes : Vector UInt8 authTokenBytes) :
    ∃ message, mail.trySend lib env recipient userName (generateAuthToken randomBytes) =
        some message ∧
      links message.html =
        [some (appBaseUrl env ++ mail.path ++ generateAuthToken randomBytes)] := by
  have hplain := url_plain hbase mail randomBytes
  have hquote : 34 ∉ appBaseUrl env ++ mail.path ++ generateAuthToken randomBytes :=
    fun h => (hplain _ h).1 rfl
  have hlt : lt ∉ appBaseUrl env ++ mail.path ++ generateAuthToken randomBytes :=
    fun h => (hplain _ h).2 rfl
  -- What is shown besides the link cannot open a tag, and the link cannot close its quotes.
  have hurl := url_generateAuthToken env mail randomBytes
  have hgreeting : Shows (str "<p>" ++ (str "Hi " ++ userName ++ str ",") ++ str "</p>") [] :=
    shows_paragraph hname (by decide +kernel) (by decide) (by decide +kernel)
  cases mail with
  | verification =>
    refine ⟨_, congrArg (Option.map _) hurl, links_buildHtml happ (by decide +kernel) ?_
      (by decide +kernel) hquote hlt⟩
    simp only [List.forall_mem_cons, List.not_mem_nil, false_implies, implies_true, and_true]
    exact ⟨hgreeting,
      shows_paragraph happ (by decide +kernel) (by decide) (by decide +kernel),
      shows_paragraph (hlib.formatMinutes _) (by decide +kernel) (by decide) (by decide +kernel)⟩
  | passwordReset =>
    refine ⟨_, congrArg (Option.map _) hurl, links_buildHtml happ (by decide +kernel) ?_
      (by decide +kernel) hquote hlt⟩
    simp only [List.forall_mem_cons, List.not_mem_nil, false_implies, implies_true, and_true]
    exact ⟨hgreeting,
      shows_paragraph happ (by decide +kernel) (by decide) (by decide +kernel),
      shows_paragraph (hlib.formatMinutes _) (by decide +kernel) (by decide) (by decide +kernel)⟩

end

/-- A number is written with digits and a sign. -/
theorem wholeNumbers_plain : wholeNumbers.Plain := by
  -- A number is written in digits and a sign, none of which is a `<`.
  have hdigits : ∀ (n : ℕ), ∀ c ∈ n.repr.toList, lt ∉ utf16 c := by
    intro n c hc hu
    rw [Nat.toList_repr] at hc
    have hdigit := Nat.isDigit_of_mem_toDigits (by decide) (by decide) hc
    have hcode : 48 ≤ c.toNat ∧ c.toNat ≤ 57 := Char.isDigit_iff_toNat.mp hdigit
    have hunit : utf16 c = [c.toNat.toUInt16] := if_pos (by omega)
    rw [hunit, List.mem_singleton] at hu
    have hlt : c.toNat % 65536 = 60 := (congrArg UInt16.toNat hu).symm
    omega
  have hint : ∀ z : ℤ, lt ∉ str (toString z) := by
    intro z hu
    obtain ⟨c, hc, hu⟩ := List.mem_flatMap.mp hu
    rw [Int.toString_eq_repr, Int.repr_eq_if] at hc
    split_ifs at hc
    · exact hdigits _ c hc hu
    · rw [String.toList_append, List.mem_append] at hc
      rcases hc with hc | hc
      · have hsign : c = '-' := List.mem_singleton.mp hc
        subst hsign
        exact absurd hu (by decide)
      · exact hdigits _ c hc hu
  have hnan : lt ∉ str "NaN" := by decide
  constructor
  · rintro (_ | _ | q)
    · exact hnan
    · exact hnan
    · exact hint q.num
  · rintro (_ | _ | q)
    · exact hnan
    · exact hnan
    · exact hint q.num

end SplitBill.Email
