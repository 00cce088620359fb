import SplitBill.Js.Str

/-!
# JSON

`JSON.stringify` and `JSON.parse`. The parser takes the text unit by unit; what is open around the
place it has reached is a stack of frames. `Reads v` says that the parser takes the text that is
written for `v` and arrives at `v`, whatever is open around it, and there is one rule for it for
each kind of value. A number is kept as it is written.
-/

namespace SplitBill.Js

/-- A JSON value. A key that an object has twice has its last value. -/
inductive Value
  | null
  | bool (b : Bool)
  | number (text : Str)
  | string (s : Str)
  | array (items : List Value)
  | object (members : List (Str × Value))

/-- `value[key]` of an object. -/
def Value.get? (key : Str) : Value → Option Value
  | object members => (members.reverse.find? (·.1 = key)).map (·.2)
  | _ => none

namespace Json

/-! ## Writing -/

/-- `"`. -/
def quote : UInt16 := 34

/-- `\`. -/
def backslash : UInt16 := 92

/-- `,`. -/
def comma : UInt16 := 44

/-- A hexadecimal digit, in lower case. -/
def hexDigit (n : ℕ) : UInt16 := if n < 10 then (48 + n).toUInt16 else (87 + n).toUInt16

/-- `\u` with the four digits of a unit. -/
def unicodeEscape (u : UInt16) : Str :=
  [backslash, 117, hexDigit (u.toNat / 4096), hexDigit (u.toNat / 256 % 16),
    hexDigit (u.toNat / 16 % 16), hexDigit (u.toNat % 16)]

/-- What is written for a unit that is no half of a pair. -/
def quoteUnit (u : UInt16) : Str :=
  if u = 8 then [backslash, 98]
  else if u = 9 then [backslash, 116]
  else if u = 10 then [backslash, 110]
  else if u = 12 then [backslash, 102]
  else if u = 13 then [backslash, 114]
  else if u = quote ∨ u = backslash then [backslash, u]
  else if u < 32 ∨ isLeading u = true ∨ isTrailing u = true then unicodeEscape u
  else [u]

/-- What is written for the units of a string. -/
def quoteUnits : Str → Str
  | [] => []
  | [u] => quoteUnit u
  | u :: w :: s =>
    if isLeading u = true ∧ isTrailing w = true then u :: w :: quoteUnits s
    else quoteUnit u ++ quoteUnits (w :: s)

/-- A string between its quotes. -/
def quoted (s : Str) : Str := quote :: quoteUnits s ++ [quote]

mutual

/-- `JSON.stringify(value)`. -/
def stringify : Value → Str
  | .null => str "null"
  | .bool true => str "true"
  | .bool false => str "false"
  | .number text => text
  | .string s => quoted s
  | .array items => 91 :: join [comma] (stringifyItems items) ++ [93]
  | .object members => 123 :: join [comma] (stringifyMembers members) ++ [125]

/-- The texts of the items of an array. -/
def stringifyItems : List Value → List Str
  | [] => []
  | v :: items => stringify v :: stringifyItems items

/-- The texts of the members of an object. -/
def stringifyMembers : List (Str × Value) → List Str
  | [] => []
  | (key, v) :: members => (quoted key ++ 58 :: stringify v) :: stringifyMembers members

end

/-! ## Reading -/

/-- A space, a tab, a line feed or a carriage return. -/
def isSpace (u : UInt16) : Bool := u == 32 || u == 9 || u == 10 || u == 13

/-- A decimal digit. -/
def isDigit (u : UInt16) : Bool := 48 ≤ u && u ≤ 57

/-- The value of a hexadecimal digit. -/
def hexValue? (u : UInt16) : Option ℕ :=
  if isDigit u = true then some (u.toNat - 48)
  else if 97 ≤ u ∧ u ≤ 102 then some (u.toNat - 87)
  else if 65 ≤ u ∧ u ≤ 70 then some (u.toNat - 55)
  else none

/-- What stands after `\` for a single unit. -/
def escaped? (u : UInt16) : Option UInt16 :=
  if u = quote ∨ u = backslash ∨ u = 47 then some u
  else if u = 98 then some 8
  else if u = 102 then some 12
  else if u = 110 then some 10
  else if u = 114 then some 13
  else if u = 116 then some 9
  else none

/-- How far a number has been read. -/
inductive Phase
  | minus
  | zero
  | integer
  | point
  | fraction
  | exponent
  | sign
  | power
  deriving DecidableEq

/-- The phase after one more unit, if it belongs to the number. -/
def Phase.next? : Phase → UInt16 → Option Phase
  | minus, u => if u = 48 then some zero else if isDigit u = true then some integer else none
  | zero, u => if u = 46 then some point else if u = 101 ∨ u = 69 then some exponent else none
  | integer, u =>
    if isDigit u = true then some integer else if u = 46 then some point
    else if u = 101 ∨ u = 69 then some exponent else none
  | point, u => if isDigit u = true then some fraction else none
  | fraction, u =>
    if isDigit u = true then some fraction else if u = 101 ∨ u = 69 then some exponent else none
  | exponent, u =>
    if u = 43 ∨ u = 45 then some sign else if isDigit u = true then some power else none
  | sign, u => if isDigit u = true then some power else none
  | power, u => if isDigit u = true then some power else none

/-- The number may end here. -/
def Phase.complete (phase : Phase) : Bool :=
  phase == zero || phase == integer || phase == fraction || phase == power

/-- What is open around a value: an array after some items, or an object after some members and
the key of the value. -/
inductive Frame
  | array (items : List Value)
  | object (members : List (Str × Value)) (key : Str)

/-- What a string is: a value, or the key of the next member of an object. -/
inductive Role
  | value
  | key (members : List (Str × Value))

/-- How far a text has been read. -/
inductive Reader
  | value (stack : List Frame)
  | firstItem (stack : List Frame)
  | firstKey (stack : List Frame)
  | key (members : List (Str × Value)) (stack : List Frame)
  | colon (members : List (Str × Value)) (key : Str) (stack : List Frame)
  | string (role : Role) (text : Str) (stack : List Frame)
  | escape (role : Role) (text : Str) (stack : List Frame)
  | unicode (role : Role) (text : Str) (digits : List ℕ) (stack : List Frame)
  | number (text : Str) (phase : Phase) (stack : List Frame)
  | word (rest : Str) (v : Value) (stack : List Frame)
  | done (v : Value) (stack : List Frame)
  | failed

namespace Reader

/-- The first unit of a value. -/
def start (stack : List Frame) (u : UInt16) : Reader :=
  if isSpace u = true then value stack
  else if u = quote then string .value [] stack
  else if u = 91 then firstItem stack
  else if u = 123 then firstKey stack
  else if u = 110 then word (str "ull") .null stack
  else if u = 116 then word (str "rue") (.bool true) stack
  else if u = 102 then word (str "alse") (.bool false) stack
  else if u = 45 then number [u] .minus stack
  else match Phase.minus.next? u with
    | some phase => number [u] phase stack
    | none => failed

/-- The quote before a key. -/
def startKey (members : List (Str × Value)) (stack : List Frame) (u : UInt16) : Reader :=
  if isSpace u = true then key members stack
  else if u = quote then string (.key members) [] stack
  else failed

/-- A unit behind a value. -/
def behind (v : Value) (stack : List Frame) (u : UInt16) : Reader :=
  if isSpace u = true then done v stack
  else match stack with
    | [] => failed
    | .array items :: stack =>
      if u = comma then value (.array (items ++ [v]) :: stack)
      else if u = 93 then done (.array (items ++ [v])) stack
      else failed
    | .object members k :: stack =>
      if u = comma then key (members ++ [(k, v)]) stack
      else if u = 125 then done (.object (members ++ [(k, v)])) stack
      else failed

/-- The quote behind a string. -/
def close (text : Str) (stack : List Frame) : Role → Reader
  | .value => done (.string text) stack
  | .key members => colon members text stack

/-- Reads one more unit. -/
def next : Reader → UInt16 → Reader
  | value stack, u => start stack u
  | firstItem stack, u =>
    if isSpace u = true then firstItem stack else if u = 93 then done (.array []) stack
    else start (.array [] :: stack) u
  | firstKey stack, u =>
    if isSpace u = true then firstKey stack else if u = 125 then done (.object []) stack
    else startKey [] stack u
  | key members stack, u => startKey members stack u
  | colon members k stack, u =>
    if isSpace u = true then colon members k stack
    else if u = 58 then value (.object members k :: stack)
    else failed
  | string role text stack, u =>
    if u = quote then close text stack role
    else if u = backslash then escape role text stack
    else if u < 32 then failed
    else string role (text ++ [u]) stack
  | escape role text stack, u =>
    if u = 117 then unicode role text [] stack
    else match escaped? u with
      | some w => string role (text ++ [w]) stack
      | none => failed
  | unicode role text digits stack, u =>
    match digits, hexValue? u with
    | [a, b, c], some d =>
      string role (text ++ [(a * 4096 + b * 256 + c * 16 + d).toUInt16]) stack
    | digits, some d => unicode role text (digits ++ [d]) stack
    | _, none => failed
  | number text phase stack, u =>
    match phase.next? u with
    | some phase => number (text ++ [u]) phase stack
    | none => if phase.complete = true then behind (.number text) stack u else failed
  | word [] _ _, _ => failed
  | word (w :: rest) v stack, u =>
    if u ≠ w then failed else if rest = [] then done v stack else word rest v stack
  | done v stack, u => behind v stack u
  | failed, _ => failed

end Reader

/-- `JSON.parse(text)`: none where it throws. -/
def parse (text : Str) : Option Value :=
  match text.foldl Reader.next (.value []) with
  | .done v [] => some v
  | .number t phase [] => if phase.complete = true then some (.number t) else none
  | _ => none

example : parse (str "\x7b\"a\": [1e5, null], \"a\":\"\\u0041\\n\"\x7d") =
    some (.object [(str "a", .array [.number (str "1e5"), .null]), (str "a", .string (str "A\n"))]) :=
  rfl

/-! ## What is written is read -/

section

variable {stack : List Frame} {role : Role} {text : Str} {u : UInt16}

/-- A hexadecimal digit is read as the number it was written for. -/
theorem hexValue_hexDigit : ∀ n < 16, hexValue? (hexDigit n) = some n := by decide

/-- The four digits of a unit are read as the unit. -/
theorem read_unicodeEscape (u : UInt16) :
    (unicodeEscape u).foldl Reader.next (.string role text stack) =
      .string role (text ++ [u]) stack := by
  have hu : u.toNat < 65536 := u.toNat_lt
  have h1 := hexValue_hexDigit (u.toNat / 4096) (by omega)
  have h2 := hexValue_hexDigit (u.toNat / 256 % 16) (by omega)
  have h3 := hexValue_hexDigit (u.toNat / 16 % 16) (by omega)
  have h4 := hexValue_hexDigit (u.toNat % 16) (by omega)
  have hsum : u.toNat / 4096 * 4096 + u.toNat / 256 % 16 * 256 + u.toNat / 16 % 16 * 16 +
      u.toNat % 16 = u.toNat := by omega
  have hopen : [backslash, 117].foldl Reader.next (.string role text stack) =
      .unicode role text [] stack := rfl
  calc (unicodeEscape u).foldl Reader.next (.string role text stack)
      = [hexDigit (u.toNat / 4096), hexDigit (u.toNat / 256 % 16), hexDigit (u.toNat / 16 % 16),
          hexDigit (u.toNat % 16)].foldl Reader.next (.unicode role text [] stack) := by
        rw [← hopen, ← List.foldl_append]
        rfl
    _ = .string role (text ++ [u]) stack := by
        simp only [List.foldl_cons, List.foldl_nil, Reader.next, h1, h2, h3, h4, List.nil_append,
          List.cons_append, hsum]
        simp

/-- A unit that stands for itself. -/
theorem read_plain (hquote : u ≠ quote) (hbackslash : u ≠ backslash) (hcontrol : ¬u < 32) :
    Reader.next (.string role text stack) u = .string role (text ++ [u]) stack := by
  simp only [Reader.next, if_neg hquote, if_neg hbackslash, if_neg hcontrol]

/-- The reader takes one unit of a string back, escaped or not. -/
theorem read_quoteUnit (u : UInt16) :
    (quoteUnit u).foldl Reader.next (.string role text stack) =
      .string role (text ++ [u]) stack := by
  unfold quoteUnit
  split_ifs with h1 h2 h3 h4 h5 h6 h7
  · rw [h1]; rfl
  · rw [h2]; rfl
  · rw [h3]; rfl
  · rw [h4]; rfl
  · rw [h5]; rfl
  · rcases h6 with rfl | rfl <;> rfl
  · exact read_unicodeEscape u
  · rw [not_or] at h6 h7
    exact read_plain h6.1 h6.2 h7.1

/-- Half a pair is no quote, no backslash and no control character. -/
theorem read_surrogate (h : 0xd800 ≤ u) :
    Reader.next (.string role text stack) u = .string role (text ++ [u]) stack := by
  rw [UInt16.le_iff_toNat_le] at h
  refine read_plain ?_ ?_ ?_
  · rintro rfl
    exact absurd h (by decide)
  · rintro rfl
    exact absurd h (by decide)
  · rw [UInt16.lt_iff_toNat_lt]
    have : (0xd800 : UInt16).toNat = 55296 := rfl
    have : (32 : UInt16).toNat = 32 := rfl
    omega

/-- The reader takes the text of a string back. -/
theorem read_quoteUnits (s text : Str) :
    (quoteUnits s).foldl Reader.next (.string role text stack) =
      .string role (text ++ s) stack := by
  fun_induction quoteUnits s generalizing text with
  | case1 => rw [List.append_nil]; rfl
  | case2 u => exact read_quoteUnit u
  | case3 u w s hpair ih =>
    obtain ⟨hu, hw⟩ := hpair
    unfold isLeading at hu
    unfold isTrailing at hw
    rw [Bool.and_eq_true, decide_eq_true_iff, decide_eq_true_iff] at hu hw
    have hw' : (0xd800 : UInt16) ≤ w := UInt16.le_trans (by decide) hw.1
    rw [List.foldl_cons, List.foldl_cons, read_surrogate hu.1, read_surrogate hw', ih,
      List.append_assoc, List.append_assoc]
    rfl
  | case4 u w s hpair ih =>
    rw [List.foldl_append, read_quoteUnit, ih, List.append_assoc]
    rfl

/-- A string is read as itself. -/
theorem read_quoted (s : Str) :
    (quoteUnits s ++ [quote]).foldl Reader.next (.string role [] stack) =
      Reader.close s stack role := by
  rw [List.foldl_append, read_quoteUnits, List.nil_append]
  rfl

end

/-- The text of a value is read as the value, also where an array may end. -/
structure Reads (v : Value) : Prop where
  value : ∀ stack, (stringify v).foldl Reader.next (.value stack) = .done v stack
  item : ∀ stack, (stringify v).foldl Reader.next (.firstItem stack) =
    .done v (.array [] :: stack)

/-- What begins with a unit that ends no array is read in both places alike. -/
theorem reads_of_cons {v : Value} {u : UInt16} {rest : Str} (hv : stringify v = u :: rest)
    (hspace : isSpace u = false) (hend : u ≠ 93)
    (h : ∀ stack, (stringify v).foldl Reader.next (.value stack) = .done v stack) : Reads v := by
  refine ⟨h, fun stack => ?_⟩
  rw [← h (.array [] :: stack), hv, List.foldl_cons, List.foldl_cons]
  congr 1
  simp only [Reader.next, hspace, hend, Bool.false_eq_true, if_false]

/-- A string is read as it was written. -/
theorem reads_string (s : Str) : Reads (.string s) := by
  refine reads_of_cons rfl rfl (by decide) fun stack => ?_
  exact read_quoted s

/-- A unit that stands behind an item of an array or a member of an object. -/
def isEnd (u : UInt16) : Bool := u == comma || u == 93 || u == 125

/-- The text of a value is read as the value as soon as something follows that can end it. The end
of a number is seen by what follows only. -/
structure Settles (v : Value) : Prop where
  value : ∀ stack u, isEnd u = true →
    Reader.next ((stringify v).foldl Reader.next (.value stack)) u = Reader.next (.done v stack) u
  item : ∀ stack u, isEnd u = true →
    Reader.next ((stringify v).foldl Reader.next (.firstItem stack)) u =
      Reader.next (.done v (.array [] :: stack)) u

/-- What is read in the middle of a text is read at its end. -/
theorem Reads.settles {v : Value} (h : Reads v) : Settles v :=
  ⟨fun stack u _ => by rw [h.value], fun stack u _ => by rw [h.item]⟩

/-- The rest of a text behind a value. -/
theorem foldl_of_next {r r' : Reader} {text : Str} (h : ∀ u, isEnd u = true → r.next u = r'.next u)
    (hnil : text ≠ []) (hend : ∀ u ∈ text.head?, isEnd u = true) :
    text.foldl Reader.next r = text.foldl Reader.next r' := by
  cases text with
  | nil => exact absurd rfl hnil
  | cons u text => rw [List.foldl_cons, List.foldl_cons, h u (hend u rfl)]

/-- Behind a value there is a comma, if there is another one, and else the end. -/
theorem head?_rest {close : UInt16} (hclose : isEnd close = true) (texts : List Str) :
    texts.flatMap ([comma] ++ ·) ++ [close] ≠ [] ∧
      ∀ u ∈ (texts.flatMap ([comma] ++ ·) ++ [close]).head?, isEnd u = true := by
  refine ⟨List.append_ne_nil_of_right_ne_nil _ (List.cons_ne_nil _ _), ?_⟩
  cases texts with
  | nil =>
    intro u hu
    obtain rfl := Option.some.inj hu
    exact hclose
  | cons text texts =>
    intro u hu
    obtain rfl := Option.some.inj hu
    rfl

/-- The items behind the first one. -/
theorem read_items {items : List Value} (h : ∀ v ∈ items, Settles v) (before : List Value)
    (last : Value) (stack : List Frame) :
    ((stringifyItems items).flatMap ([comma] ++ ·) ++ [93]).foldl Reader.next
        (.done last (.array before :: stack)) =
      .done (.array (before ++ last :: items)) stack := by
  induction items generalizing before last with
  | nil => rfl
  | cons v items ih =>
    obtain ⟨hv, hitems⟩ := List.forall_mem_cons.mp h
    obtain ⟨hnil, hend⟩ := @head?_rest 93 rfl (stringifyItems items)
    have hcomma : Reader.next (.done last (.array before :: stack)) comma =
        .value (.array (before ++ [last]) :: stack) := rfl
    unfold stringifyItems
    rw [List.flatMap_cons, List.append_assoc, List.append_assoc, List.singleton_append,
      List.foldl_cons, hcomma, List.foldl_append, foldl_of_next (hv.value _) hnil hend, ih hitems,
      List.append_assoc]
    rfl

/-- An array of values that settle is read as it was written. -/
theorem reads_array_of_settles {items : List Value} (h : ∀ v ∈ items, Settles v) :
    Reads (.array items) := by
  refine reads_of_cons rfl rfl (by decide) fun stack => ?_
  cases items with
  | nil => rfl
  | cons v items =>
    obtain ⟨hv, hitems⟩ := List.forall_mem_cons.mp h
    obtain ⟨hnil, hend⟩ := @head?_rest 93 rfl (stringifyItems items)
    unfold stringify stringifyItems
    rw [join_cons, List.cons_append, List.foldl_cons, List.append_assoc, List.foldl_append]
    have hopen : Reader.next (.value stack) 91 = .firstItem stack := rfl
    rw [hopen, foldl_of_next (hv.item _) hnil hend]
    exact read_items hitems [] v stack

/-- An array of values that are read. -/
theorem reads_array {items : List Value} (h : ∀ v ∈ items, Reads v) : Reads (.array items) :=
  reads_array_of_settles fun v hv => (h v hv).settles

/-- A member, from the quote of its key on. -/
theorem read_member {v : Value} (hv : Settles v) (key : Str) (members : List (Str × Value))
    (stack : List Frame) {rest : Str} (hnil : rest ≠ []) (hend : ∀ u ∈ rest.head?, isEnd u = true) :
    ((quoteUnits key ++ [quote] ++ 58 :: stringify v) ++ rest).foldl Reader.next
        (.string (.key members) [] stack) =
      rest.foldl Reader.next (.done v (.object members key :: stack)) := by
  have hcolon : Reader.next (.colon members key stack) 58 = .value (.object members key :: stack) :=
    rfl
  have hkey : Reader.close key stack (.key members) = .colon members key stack := rfl
  rw [List.foldl_append, List.foldl_append, read_quoted, hkey, List.foldl_cons, hcolon,
    foldl_of_next (hv.value _) hnil hend]

/-- The members behind the first one. -/
theorem read_members {members : List (Str × Value)} (h : ∀ e ∈ members, Settles e.2)
    (before : List (Str × Value)) (key : Str) (last : Value) (stack : List Frame) :
    ((stringifyMembers members).flatMap ([comma] ++ ·) ++ [125]).foldl Reader.next
        (.done last (.object before key :: stack)) =
      .done (.object (before ++ (key, last) :: members)) stack := by
  induction members generalizing before key last with
  | nil => rfl
  | cons e members ih =>
    obtain ⟨he, hmembers⟩ := List.forall_mem_cons.mp h
    obtain ⟨hnil, hend⟩ := @head?_rest 125 rfl (stringifyMembers members)
    have hcomma : [comma, quote].foldl Reader.next (.done last (.object before key :: stack)) =
        .string (.key (before ++ [(key, last)])) [] stack := rfl
    have htext : ([comma] ++ (quoted e.1 ++ 58 :: stringify e.2)) =
        [comma, quote] ++ (quoteUnits e.1 ++ [quote] ++ 58 :: stringify e.2) := by
      unfold quoted
      simp only [List.cons_append, List.nil_append]
    unfold stringifyMembers
    rw [List.flatMap_cons, htext, List.append_assoc, List.append_assoc, List.foldl_append, hcomma,
      read_member he _ _ _ hnil hend, ih hmembers, List.append_assoc]
    rfl

/-- An object of values that settle is read as it was written. -/
theorem reads_object_of_settles {members : List (Str × Value)} (h : ∀ e ∈ members, Settles e.2) :
    Reads (.object members) := by
  refine reads_of_cons rfl rfl (by decide) fun stack => ?_
  cases members with
  | nil => rfl
  | cons e members =>
    obtain ⟨he, hmembers⟩ := List.forall_mem_cons.mp h
    obtain ⟨hnil, hend⟩ := @head?_rest 125 rfl (stringifyMembers members)
    have hopen : [123, quote].foldl Reader.next (.value stack) = .string (.key []) [] stack := rfl
    have htext : stringify (.object (e :: members)) =
        [123, quote] ++ ((quoteUnits e.1 ++ [quote] ++ 58 :: stringify e.2) ++
          ((stringifyMembers members).flatMap ([comma] ++ ·) ++ [125])) := by
      simp only [stringify, stringifyMembers, join_cons, quoted, List.cons_append, List.nil_append,
        List.append_assoc]
    rw [htext, List.foldl_append, hopen, read_member he _ _ _ hnil hend]
    exact read_members hmembers [] e.1 e.2 stack

/-- An object of values that are read. -/
theorem reads_object {members : List (Str × Value)} (h : ∀ e ∈ members, Reads e.2) :
    Reads (.object members) :=
  reads_object_of_settles fun e he => (h e he).settles

/-- `true` and `false` are read as they were written. -/
theorem reads_bool (b : Bool) : Reads (.bool b) := by
  cases b <;> exact reads_of_cons rfl rfl (by decide) fun _ => rfl

/-- `JSON.parse` undoes `JSON.stringify`. -/
theorem parse_stringify {v : Value} (h : Reads v) : parse (stringify v) = some v := by
  unfold parse
  rw [h.value]

end Json

end SplitBill.Js
