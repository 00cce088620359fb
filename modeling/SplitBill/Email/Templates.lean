import SplitBill.Html
import SplitBill.Js.Double

/-!
# Mails

The mails that `src/modules/email` sends for a new account and for a forgotten password, and the
names that registration and the profile accept. A name is written into the page of a mail as it is,
so it is read as text exactly if it opens no markup.

How a number is divided and written is a parameter (`Numerals`).
-/

namespace SplitBill.Email

open Js Html

/-! ## The code -/

/-- How numbers are divided and written. -/
structure Numerals where
  /-- `a / b`. -/
  div : Double → Double → Double
  /-- `String(value)`. -/
  toString : Double → Str
  /-- `value.toFixed(1)`. -/
  toFixed1 : Double → Str

/-- `RenderedEmail`. -/
structure RenderedEmail where
  subject : Str
  text : Str
  html : Str

/-- `VerificationEmailData`. -/
structure VerificationEmailData where
  appName : Str
  userName : Str
  verificationUrl : Str
  expiresInMinutes : Double

/-- `PasswordResetEmailData`. -/
structure PasswordResetEmailData where
  appName : Str
  userName : Str
  resetUrl : Str
  expiresInMinutes : Double

/-- `formatMinutes`. -/
def formatMinutes (lib : Numerals) (minutes : Double) : Str :=
  if minutes.lt (.finite 60) = true then
    lib.toString minutes ++ str " minute" ++ if minutes = .finite 1 then [] else str "s"
  else
    let hours := lib.div minutes (.finite 60)
    (if hours.isInteger = true then lib.toString hours else lib.toFixed1 hours) ++ str " hour" ++
      if hours = .finite 1 then [] else str "s"

/-- The lines of a page before its heading. -/
def topLines : List Str :=
  [str "<!DOCTYPE html>",
    str "<html lang=\"en\">",
    str "  <body style=\"margin:0;padding:0;" ++ str "font-family:Arial,Helvetica,sans-serif;" ++
      str "background:#f4f5f7;color:#1f2937\">",
    str "    <table role=\"presentation\" " ++ str "width=\"100%\" cellpadding=\"0\" " ++
      str "cellspacing=\"0\" " ++ str "style=\"background:#f4f5f7;padding:24px 0\">",
    str "      <tr>",
    str "        <td align=\"center\">",
    str "          <table role=\"presentation\" " ++ str "width=\"560\" cellpadding=\"0\" " ++
      str "cellspacing=\"0\" " ++ str "style=\"background:#ffffff;border-radius:8px;" ++
      str "padding:32px;text-align:left\">",
    str "            <tr>"]

/-- What is written before and behind the heading. -/
def headingTag : Str × Str :=
  (str "              <td><h1 " ++ str "style=\"font-size:20px;margin:0 0 16px 0\">",
    str "</h1></td>")

/-- The lines of a page before its paragraphs. -/
def headLines (heading : Str) : List Str :=
  topLines ++ [headingTag.1 ++ heading ++ headingTag.2, str "            </tr>"]

/-- The lines of a page behind its paragraphs. -/
def tailLines (appName buttonLabel buttonUrl : Str) : List Str :=
  [str "            <tr>",
    str "              <td style=\"padding:24px 0\"><a href=\"" ++ buttonUrl ++
      str "\" style=\"background:#2563eb;color:#ffffff;text-decoration:none;padding:12px 24px;" ++
      str "border-radius:6px;display:inline-block\">" ++ buttonLabel ++ str "</a></td>",
    str "            </tr>",
    str "            <tr><td style=\"color:#6b7280;font-size:13px;line-height:1.6\">If the button " ++
      str "above does not work, copy and paste this link into your browser:<br/>" ++ buttonUrl ++
      str "</td></tr>",
    str "            <tr><td style=\"color:#9ca3af;font-size:12px;padding-top:16px\">&mdash; " ++
      appName ++ str "</td></tr>",
    str "          </table>",
    str "        </td>",
    str "      </tr>",
    str "    </table>",
    str "  </body>",
    str "</html>"]

/-- `buildHtml`. -/
def buildHtml (appName heading : Str) (paragraphs : List Str) (buttonLabel buttonUrl : Str) : Str :=
  let paragraphsHtml := join (str "\n") (paragraphs.map fun p => str "<p>" ++ p ++ str "</p>")
  join (str "\n") (headLines heading ++
    [str "            <tr><td>" ++ paragraphsHtml ++ str "</td></tr>"] ++
    tailLines appName buttonLabel buttonUrl)

/-- `buildVerificationEmail`. -/
def buildVerificationEmail (lib : Numerals) (data : VerificationEmailData) : RenderedEmail :=
  let ttl := formatMinutes lib data.expiresInMinutes
  { subject := str "Verify your email address"
    text := join (str "\n")
      [str "Hi " ++ data.userName ++ str ",",
        [],
        str "Welcome to " ++ data.appName ++
          str "! Please verify your email address by opening the link below.",
        [],
        data.verificationUrl,
        [],
        str "This link expires in " ++ ttl ++
          str ". If you did not create an account, you can safely ignore this email.",
        [],
        str "Thanks,",
        data.appName]
    html := buildHtml data.appName (str "Verify your email address")
      [str "Hi " ++ data.userName ++ str ",",
        str "Welcome to <strong>" ++ data.appName ++
          str "</strong>! Please verify your email address to activate your account.",
        str "This link expires in " ++ ttl ++
          str ". If you did not create an account, you can safely ignore this email."]
      (str "Verify email") data.verificationUrl }

/-- `buildPasswordResetEmail`. -/
def buildPasswordResetEmail (lib : Numerals) (data : PasswordResetEmailData) : RenderedEmail :=
  let ttl := formatMinutes lib data.expiresInMinutes
  { subject := str "Reset your password"
    text := join (str "\n")
      [str "Hi " ++ data.userName ++ str ",",
        [],
        str "We received a request to reset the password for your " ++ data.appName ++
          str " account. Open the link below to choose a new password.",
        [],
        data.resetUrl,
        [],
        str "This link expires in " ++ ttl ++
          str ". If you did not request a password reset, you can safely ignore this email.",
        [],
        str "Thanks,",
        data.appName]
    html := buildHtml data.appName (str "Reset your password")
      [str "Hi " ++ data.userName ++ str ",",
        str "We received a request to reset the password for your <strong>" ++ data.appName ++
          str "</strong> account. Choose a new password using the link below.",
        str "This link expires in " ++ ttl ++
          str ". If you did not request a password reset, you can safely ignore this email."]
      (str "Reset password") data.resetUrl }

/-- What of the settings a mail is made from. -/
structure MailEnv where
  appName : Str := str "Hisab Split Bill"
  appBaseUrl : Str := str "http://localhost:3000"
  emailFrom : Str := str "no-reply@localhost"
  emailFromName : Str := str "Hisab"
  emailVerificationTokenTtlMinutes : Double := .finite 1440
  passwordResetTokenTtlMinutes : Double := .finite 60

/-- `EmailMessage`. -/
structure EmailMessage where
  sender : Str
  recipient : Str
  subject : Str
  text : Str
  html : Str

/-- `formatFrom`. -/
def formatFrom (name address : Str) : Str := name ++ str " <" ++ address ++ str ">"

/-- The message that `dispatch` hands to the provider. -/
def dispatched (env : MailEnv) (recipient : Str) (rendered : RenderedEmail) : EmailMessage :=
  ⟨formatFrom env.emailFromName env.emailFrom, recipient, rendered.subject, rendered.text,
    rendered.html⟩

/-- `sendVerificationEmail`. -/
def sendVerificationEmail (lib : Numerals) (env : MailEnv)
    (recipient verificationUrl userName : Str) : EmailMessage :=
  dispatched env recipient (buildVerificationEmail lib
    ⟨env.appName, userName, verificationUrl, env.emailVerificationTokenTtlMinutes⟩)

/-- `sendPasswordResetEmail`. -/
def sendPasswordResetEmail (lib : Numerals) (env : MailEnv)
    (recipient resetUrl userName : Str) : EmailMessage :=
  dispatched env recipient (buildPasswordResetEmail lib
    ⟨env.appName, userName, resetUrl, env.passwordResetTokenTtlMinutes⟩)

/-- `appBaseUrl`. -/
def appBaseUrl (env : MailEnv) : Str := (env.appBaseUrl.reverse.dropWhile (· = slash)).reverse

/-- `emailVerificationUrl`: none where `encodeURIComponent` throws. -/
def emailVerificationUrl (env : MailEnv) (token : Str) : Option Str :=
  (encodeURIComponent token).map fun token => appBaseUrl env ++ str "/verify-email?token=" ++ token

/-- `passwordResetUrl`: none where `encodeURIComponent` throws. -/
def passwordResetUrl (env : MailEnv) (token : Str) : Option Str :=
  (encodeURIComponent token).map fun token => appBaseUrl env ++ str "/reset-password?token=" ++ token

/-- The `name` of `registerBodySchema` and of `updateProfileBodySchema`. -/
def parseName (input : Str) : Option Str :=
  let name := trim input
  if 1 ≤ name.length ∧ name.length ≤ 100 then some name else none

/-! ## Names in mails -/

/-- What a page begins with, up to the text of its first paragraph. -/
def opening (heading : Str) : Str :=
  join (str "\n") (headLines heading) ++ str "\n            <tr><td><p>"

/-- The first paragraph stands behind the opening as it is. -/
theorem buildHtml_eq (appName heading : Str) (paragraphs : List Str) (buttonLabel buttonUrl : Str) :
    ∃ rest, ∀ p, buildHtml appName heading (p :: paragraphs) buttonLabel buttonUrl =
      opening heading ++ p ++ rest := by
  refine ⟨str "</p>" ++ (paragraphs.flatMap fun p => str "\n" ++ (str "<p>" ++ p ++ str "</p>")) ++
    str "</td></tr>" ++ (tailLines appName buttonLabel buttonUrl).flatMap (str "\n" ++ ·), ?_⟩
  intro p
  have hopen : str "            <tr><td>" ++ str "<p>" = str "            <tr><td><p>" := by decide
  have hline : str "\n" ++ str "            <tr><td><p>" = str "\n            <tr><td><p>" := by
    decide
  have hhead : headLines heading ≠ [] := List.append_ne_nil_of_left_ne_nil (List.cons_ne_nil _ _) _
  unfold opening
  simp only [buildHtml]
  rw [List.append_assoc, List.singleton_append, join_append hhead, List.map_cons,
    join_cons, join_cons, List.flatMap_map, ← hline, ← hopen]
  simp only [List.append_assoc]

/-- The page of a mail of either kind, for a name. -/
def pages (lib : Numerals) (env : MailEnv) (recipient url : Str) : List (Str → Str) :=
  [fun userName => (sendVerificationEmail lib env recipient url userName).html,
    fun userName => (sendPasswordResetEmail lib env recipient url userName).html]

/-- Behind the opening text is read, if it is read behind the heading. -/
theorem after_opening {heading : Str} (h : Mode.data.after heading = .data) :
    Mode.data.after (opening heading ++ str "Hi ") = .data := by
  have htop : Mode.data.after (join (str "\n") topLines ++ str "\n" ++ headingTag.1) = .data := by
    decide +kernel
  have hrest : Mode.data.after (headingTag.2 ++ str "\n            </tr>" ++
      str "\n            <tr><td><p>" ++ str "Hi ") = .data := by decide +kernel
  have hlines : opening heading ++ str "Hi " =
      (join (str "\n") topLines ++ str "\n" ++ headingTag.1) ++ (heading ++
        (headingTag.2 ++ str "\n            </tr>" ++ str "\n            <tr><td><p>" ++
          str "Hi ")) := by
    have htr : str "\n" ++ str "            </tr>" = str "\n            </tr>" := by decide
    have htop : topLines ≠ [] := List.cons_ne_nil _ _
    unfold opening headLines
    rw [join_append htop, join_cons, List.flatMap_singleton, htr]
    simp only [List.append_assoc]
  rw [hlines, Mode.after_append, htop, Mode.after_append, h, hrest]

/-- A name stands in the first paragraph of a page, before a comma. -/
theorem buildHtml_greeting (appName heading : Str) (paragraphs : List Str)
    (buttonLabel buttonUrl : Str) :
    ∃ rest, ∀ userName, buildHtml appName heading
        ((str "Hi " ++ userName ++ str ",") :: paragraphs) buttonLabel buttonUrl =
      (opening heading ++ str "Hi ") ++ userName ++ 44 :: rest := by
  obtain ⟨rest, hrest⟩ := buildHtml_eq appName heading paragraphs buttonLabel buttonUrl
  refine ⟨rest, fun userName => ?_⟩
  have hcomma : str "," = [44] := by decide
  rw [hrest, hcomma]
  simp only [List.append_assoc, List.singleton_append]

/-- The document of a verification mail. -/
theorem sendVerificationEmail_html (lib : Numerals) (env : MailEnv) (recipient url : Str) :
    ∃ paragraphs buttonLabel, ∀ userName,
      (sendVerificationEmail lib env recipient url userName).html =
        buildHtml env.appName (str "Verify your email address")
          ((str "Hi " ++ userName ++ str ",") :: paragraphs) buttonLabel url := by
  unfold sendVerificationEmail dispatched buildVerificationEmail
  dsimp only
  exact ⟨_, _, fun _ => rfl⟩

/-- The document of a reset mail. -/
theorem sendPasswordResetEmail_html (lib : Numerals) (env : MailEnv) (recipient url : Str) :
    ∃ paragraphs buttonLabel, ∀ userName,
      (sendPasswordResetEmail lib env recipient url userName).html =
        buildHtml env.appName (str "Reset your password")
          ((str "Hi " ++ userName ++ str ",") :: paragraphs) buttonLabel url := by
  unfold sendPasswordResetEmail dispatched buildPasswordResetEmail
  dsimp only
  exact ⟨_, _, fun _ => rfl⟩

/-- The name stands at one place of a page whose heading is text: where text is read, and before a
comma. -/
theorem page_eq {page : Str → Str} {appName heading : Str} {paragraphs : List Str}
    {buttonLabel buttonUrl : Str} (hheading : Mode.data.after heading = .data)
    (hpage : ∀ userName, page userName = buildHtml appName heading
      ((str "Hi " ++ userName ++ str ",") :: paragraphs) buttonLabel buttonUrl) :
    ∃ before rest, Mode.data.after before = .data ∧
      ∀ userName, page userName = before ++ userName ++ 44 :: rest := by
  obtain ⟨rest, hrest⟩ := buildHtml_greeting appName heading paragraphs buttonLabel buttonUrl
  refine ⟨opening heading ++ str "Hi ", rest, after_opening hheading, fun userName => ?_⟩
  rw [hpage, hrest]

/-- So it is in both mails. -/
theorem pages_eq {lib : Numerals} {env : MailEnv} {recipient url : Str} {page : Str → Str}
    (h : page ∈ pages lib env recipient url) :
    ∃ before rest, Mode.data.after before = .data ∧
      ∀ userName, page userName = before ++ userName ++ 44 :: rest := by
  unfold pages at h
  rw [List.mem_cons, List.mem_singleton] at h
  rcases h with rfl | rfl
  · obtain ⟨_, _, hhtml⟩ := sendVerificationEmail_html lib env recipient url
    exact page_eq (by decide) hhtml
  · obtain ⟨_, _, hhtml⟩ := sendPasswordResetEmail_html lib env recipient url
    exact page_eq (by decide) hhtml

/-- The mails for two names have the same tags and show the names as text exactly if neither name
opens markup. -/
theorem mails_show_names_iff (lib : Numerals) (env : MailEnv) (recipient url name₁ name₂ : Str) :
    (∀ page ∈ pages lib env recipient url,
      tags (page name₁) = tags (page name₂) ∧ IsText page name₁ ∧ IsText page name₂) ↔
      opensMarkup name₁ = false ∧ opensMarkup name₂ = false := by
  constructor
  · intro h
    have hmem : (fun userName => (sendVerificationEmail lib env recipient url userName).html) ∈
        pages lib env recipient url := List.mem_cons_self
    obtain ⟨-, h₁, h₂⟩ := h _ hmem
    obtain ⟨before, rest, hbefore, hpage⟩ := pages_eq hmem
    exact ⟨(isText_iff hpage hbefore rfl).mp h₁, (isText_iff hpage hbefore rfl).mp h₂⟩
  · rintro ⟨h₁, h₂⟩ page hmem
    obtain ⟨before, rest, hbefore, hpage⟩ := pages_eq hmem
    have htags := fun name => tags_of_plain (s := name) hpage hbefore rfl
    exact ⟨(htags _ h₁).trans (htags _ h₂).symm, (isText_iff hpage hbefore rfl).mpr h₁,
      (isText_iff hpage hbefore rfl).mpr h₂⟩

/-- Whole numbers, and exact quotients. -/
def wholeNumbers : Numerals where
  div
    | .finite a, .finite b => .finite (a / b)
    | _, _ => .nan
  toString
    | .finite q => str (toString q.num)
    | _ => str "NaN"
  toFixed1
    | .finite q => str (toString q.num)
    | _ => str "NaN"

/-- A name that is accepted, and that adds a link of its own to both mails. -/
theorem accepted_name_adds_link :
    parseName (str "<a href=//evil.example>Ann</a>") = some (str "<a href=//evil.example>Ann</a>") ∧
      parseName (str "Ann") = some (str "Ann") ∧
      emailVerificationUrl {} (str "dG9rZW4") =
        some (str "http://localhost:3000/verify-email?token=dG9rZW4") ∧
      ∀ page ∈ pages wholeNumbers {} (str "ann@example.com")
          (str "http://localhost:3000/verify-email?token=dG9rZW4"),
        ⟨false, str "a", [(str "href", str "//evil.example")], false⟩ ∈
          tags (page (str "<a href=//evil.example>Ann</a>")) ∧
        tags (page (str "<a href=//evil.example>Ann</a>")) ≠ tags (page (str "Ann")) := by
  refine ⟨by decide, by decide, by decide, fun page hmem => ?_⟩
  obtain ⟨before, rest, hbefore, hpage⟩ := pages_eq hmem
  have hevil : Mode.data.after (str "<a href=//evil.example>Ann</a>") = .data := by decide
  have hadds : (Mode.data.read (str "<a href=//evil.example>Ann</a>")).filterMap Piece.tag? =
      [⟨false, str "a", [(str "href", str "//evil.example")], false⟩,
        ⟨true, str "a", [], false⟩] := by decide
  have htags := tags_of_after hpage hbefore hevil
  have hplain : tags (page (str "Ann")) = _ := tags_of_plain hpage hbefore rfl (by decide)
  rw [hadds] at htags
  rw [htags, hplain]
  -- Both pages have the tags around the name, and one has those of the name as well.
  refine ⟨List.mem_append_left _ (List.mem_append_right _ List.mem_cons_self), fun h => ?_⟩
  have hlength := congrArg List.length h
  simp only [List.length_append, List.length_cons, List.length_nil] at hlength
  omega

end SplitBill.Email
