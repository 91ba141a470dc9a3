import AccountCache.Json.Reader
import AccountCache.Json.Writer
import AccountCache.Proofs.Coherence.Datum
import Mathlib.Data.List.TakeWhile

namespace AccountCache

theorem hexValue?_hexDigit {n : Nat} (small : n < 16) : hexValue? (hexDigit n) = some n := by
  have digits : ∀ n < 16, hexValue? (hexDigit n) = some n := by decide
  exact digits n small

theorem hexNumber?_hexDigits {width n : Nat} (small : n < Nat.pow 16 width) :
    hexNumber? (hexDigits width n) = some n := by
  induction width generalizing n with
  | zero =>
    have zero : n = 0 := Nat.lt_one_iff.1 small
    rw [zero]
    rfl
  | succ width ih =>
    have front : n / 16 < Nat.pow 16 width := Nat.div_lt_of_lt_mul (by rwa [Nat.mul_comm])
    have last := hexValue?_hexDigit (Nat.mod_lt n (by decide : 16 > 0))
    have read := ih front
    rw [hexNumber?] at read ⊢
    rw [hexDigits, List.foldlM_append, read]
    show ((hexValue? (hexDigit (n % 16))).map (16 * (n / 16) + ·) >>= some) = some n
    rw [last, Option.map_some, Nat.div_add_mod]
    rfl

theorem symbolsOfBytes_ofText (s : String) : symbolsOfBytes (.ofText s) = s.toList.map some := by
  have text : (Bytes.ofText s).text? = some s := dif_pos s.isValidUTF8
  rw [symbolsOfBytes, text]

namespace Json

/-- Values that are written as they are: their texts are Unicode, and their
numbers are integers. -/
inductive IsPlain : Json → Prop
  | null : IsPlain .null
  | bool (b) : IsPlain (.bool b)
  | int (n) : IsPlain (ofInt n)
  | text (s) : IsPlain (ofText s)
  | array {items} : (∀ j ∈ items, IsPlain j) → IsPlain (.array items)
  | object {members : List (String × Json)} : (∀ m ∈ members, IsPlain m.2) → IsPlain (ofMembers members)

/-- Whether a reader of tokens is between two of them or may be: any sign
that comes next finds the last one read. After a number this is so before
the reader knows that the number is over. -/
structure Lexer.Ready (l : Lexer) (tokens : List Token) : Prop where
  settle : l.settle = some ⟨tokens, .nothing⟩
  next : ∀ c ∈ [',', ':', ']', '\x7d'], l.stepChar c = begin tokens c

/-- Whether a text is read as some tokens. -/
def Reads (cs : List Char) (ts : List Token) : Prop :=
  ∀ tokens, cs.foldlM Lexer.stepChar ⟨tokens, .nothing⟩ = some ⟨ts.reverse ++ tokens, .nothing⟩

/-- Whether a text is read as some tokens, the last of which may
still go on. -/
def Lexes (cs : List Char) (ts : List Token) : Prop :=
  ∀ tokens, ∃ l, cs.foldlM Lexer.stepChar ⟨tokens, .nothing⟩ = some l ∧ l.Ready (ts.reverse ++ tokens)

/-- Whether a text ends the token before it and is read as some tokens. -/
def Ends (cs : List Char) (ts : List Token) : Prop :=
  ∀ l tokens, Lexer.Ready l tokens →
    cs.foldlM Lexer.stepChar l = some ⟨ts.reverse ++ tokens, .nothing⟩

theorem Lexer.ready_nothing (tokens : List Token) : Lexer.Ready ⟨tokens, .nothing⟩ tokens :=
  ⟨rfl, fun _ _ => rfl⟩

/-- A token that goes on until a sign ends it is read when the
sign comes. -/
theorem Lexer.ready_of_settle {l : Lexer} {tokens : List Token} (settles : l.settle = some ⟨tokens, .nothing⟩)
    (ends : ∀ c ∈ [',', ':', ']', '\x7d'], l.stepChar c = l.settle.bind fun l => begin l.tokens c) :
    l.Ready tokens := by
  refine ⟨settles, fun c stop => ?_⟩
  rw [ends c stop, settles]
  rfl

theorem Reads.lexes {cs : List Char} {ts : List Token} (reads : Reads cs ts) : Lexes cs ts := fun tokens =>
  ⟨_, reads tokens, Lexer.ready_nothing _⟩

theorem Reads.append {cs cs' : List Char} {ts ts' : List Token} (reads : Reads cs ts) (reads' : Reads cs' ts') :
    Reads (cs ++ cs') (ts ++ ts') := by
  intro tokens
  have later := reads' (ts.reverse ++ tokens)
  rw [List.foldlM_append, reads tokens, List.reverse_append, List.append_assoc]
  exact later

theorem Lexes.followed {cs cs' : List Char} {ts ts' : List Token} (lexes : Lexes cs ts) (ends : Ends cs' ts') :
    Reads (cs ++ cs') (ts ++ ts') := by
  intro tokens
  obtain ⟨l, reads, ready⟩ := lexes tokens
  have later := ends l _ ready
  rw [List.foldlM_append, reads, List.reverse_append, List.append_assoc]
  exact later

def sign? : Token → Option Char
  | .comma => some ','
  | .colon => some ':'
  | .endArray => some ']'
  | .endObject => some '\x7d'
  | _ => none

theorem Reads.ends {c : Char} {t : Token} {cs : List Char} {ts : List Token} (sign : sign? t = some c)
    (reads : Reads cs ts) : Ends (c :: cs) (t :: ts) := by
  intro l tokens ready
  have stop : l.stepChar c = some ⟨t :: tokens, .nothing⟩ := by
    cases t with
    | comma | colon | endArray | endObject =>
      cases sign
      exact ready.next _ (by decide)
    | _ => cases sign
  have later := reads (t :: tokens)
  rw [List.foldlM_cons, stop, List.reverse_cons, List.append_assoc]
  exact later

def partialText (cs : List Char) : PartialText := ⟨cs.reverse, none, true⟩

theorem push_partialText (cs : List Char) (c : Char) : (partialText cs).push c = partialText (cs ++ [c]) := by
  simp only [PartialText.push, partialText, List.reverse_append]
  rfl

theorem foldlM_control (tokens : List Token) (cs : List Char) {c : Char} (control : c.toNat < 0x20) :
    ('\\' :: 'u' :: hexDigits 4 c.toNat).foldlM Lexer.stepChar ⟨tokens, .text (partialText cs)⟩ =
      some ⟨tokens, .text (partialText (cs ++ [c]))⟩ := by
  have small : c.toNat < Nat.pow 16 4 := Nat.lt_of_lt_of_le control (by decide)
  have value := hexNumber?_hexDigits small
  have digit : ∀ n, hexValue? (hexDigit (n % 16)) = some (n % 16) := fun n =>
    hexValue?_hexDigit (Nat.mod_lt n (by decide))
  -- A control character is no half of a surrogate pair, so its number alone is a character.
  have unit : (partialText cs).pushUnit c.toNat = partialText (cs ++ [c]) := by
    have low : ¬(0xd800 ≤ c.toNat ∧ c.toNat < 0xdc00) := by omega
    have high : ¬(0xdc00 ≤ c.toNat ∧ c.toNat < 0xe000) := by omega
    rw [PartialText.pushUnit, if_neg low, if_neg high, Char.ofNat_toNat, push_partialText]
  simp only [hexDigits, List.nil_append, List.cons_append] at value ⊢
  have escape : Lexer.stepChar ⟨tokens, .escape (partialText cs)⟩ 'u' =
      some ⟨tokens, .unicode (partialText cs) []⟩ := rfl
  have start : Lexer.stepChar ⟨tokens, .text (partialText cs)⟩ '\\' =
      some ⟨tokens, .escape (partialText cs)⟩ := rfl
  simp only [List.foldlM_cons, List.foldlM_nil, start, escape, Option.bind_eq_bind, Option.bind_some]
  simp [Lexer.stepChar, digit, value, unit]

theorem foldlM_charText (tokens : List Token) (cs : List Char) (c : Char) :
    (charText c).foldlM Lexer.stepChar ⟨tokens, .text (partialText cs)⟩ =
      some ⟨tokens, .text (partialText (cs ++ [c]))⟩ := by
  unfold charText
  split
  case h_8 quote backslash _ _ _ _ _ =>
    split
    · next control => exact foldlM_control tokens cs control
    · next printed =>
      have other : (c == '"') = false ∧ (c == '\\') = false :=
        ⟨beq_eq_false_iff_ne.2 quote, beq_eq_false_iff_ne.2 backslash⟩
      rw [← push_partialText]
      simp [Lexer.stepChar, Lexer.stepText, other, printed]
  all_goals
    rw [← push_partialText]
    rfl

theorem foldlM_flatMap_charText (tokens : List Token) (cs rest : List Char) :
    (rest.flatMap charText).foldlM Lexer.stepChar ⟨tokens, .text (partialText cs)⟩ =
      some ⟨tokens, .text (partialText (cs ++ rest))⟩ := by
  induction rest generalizing cs with
  | nil => rw [List.append_nil]; rfl
  | cons c rest ih =>
    rw [List.flatMap_cons, List.foldlM_append, foldlM_charText]
    show (rest.flatMap charText).foldlM Lexer.stepChar ⟨tokens, .text (partialText (cs ++ [c]))⟩ = _
    rw [ih, List.append_assoc]
    rfl

theorem reads_stringText (s : String) : Reads (stringText s) [.string (some s)] := by
  intro tokens
  have start : Lexer.stepChar ⟨tokens, .nothing⟩ '"' = some ⟨tokens, .text (partialText [])⟩ := rfl
  have text : (partialText s.toList).text? = some s := by
    rw [PartialText.text?, partialText, List.reverse_reverse, String.ofList_toList]
    rfl
  have stop : Lexer.stepChar ⟨tokens, .text (partialText s.toList)⟩ '"' =
      some ⟨.string (some s) :: tokens, .nothing⟩ := by
    rw [← text]
    rfl
  rw [stringText, List.cons_append, List.foldlM_cons, start]
  show ((s.toList.flatMap charText) ++ ['"']).foldlM Lexer.stepChar ⟨tokens, .text (partialText [])⟩ = _
  rw [List.foldlM_append, foldlM_flatMap_charText]
  show ['"'].foldlM Lexer.stepChar ⟨tokens, .text (partialText s.toList)⟩ = _
  rw [List.foldlM_cons, stop]
  rfl

theorem head_toDigits {n : Nat} (positive : n ≠ 0) : (Nat.toDigits 10 n).head? ≠ some '0' := by
  induction n using Nat.strongRecOn with
  | ind n ih =>
    rw [Nat.toDigits_eq_if (by decide)]
    split
    · next small =>
      have digits : ∀ n < 10, n ≠ 0 → some n.digitChar ≠ some '0' := by decide
      exact digits n small positive
    · next large =>
      have front := ih (n / 10) (by omega) (by omega)
      rwa [List.head?_append, Option.or_of_isSome (by rw [List.isSome_head?]; exact Nat.toDigits_ne_nil)]

theorem numberOfChars?_digits {ds : List Char} (digits : ∀ c ∈ ds, c.isDigit = true) (some_ : ds ≠ [])
    (normal : ds.length = 1 ∨ ds.head? ≠ some '0') :
    numberOfChars? ds = some ⟨false, digitsValue ds, [], none⟩ ∧
      numberOfChars? ('-' :: ds) = some ⟨true, digitsValue ds, [], none⟩ := by
  have whole : ds.takeWhile Char.isDigit = ds := List.takeWhile_eq_self_iff.2 digits
  have rest : ds.dropWhile Char.isDigit = [] := List.dropWhile_eq_nil_iff.2 digits
  have unsigned : ∀ cs, ds ≠ '-' :: cs := by
    rintro cs rfl
    cases digits '-' (List.mem_cons_self ..)
  constructor
  · simp [numberOfChars?, whole, rest, exponent?, some_, normal]
  · simp [numberOfChars?, whole, rest, exponent?, some_, normal]

theorem numberOfChars?_numberText (n : Int) : numberOfChars? (numberText (.ofInt n)) = some (.ofInt n) := by
  have digits : ∀ c ∈ Nat.toDigits 10 n.natAbs, c.isDigit = true := fun c =>
    Nat.isDigit_of_mem_toDigits (by decide) (by decide)
  have value : digitsValue (Nat.toDigits 10 n.natAbs) = n.natAbs := by
    rw [digitsValue, ← Nat.ofDigitChars_eq_foldl, Nat.ofDigitChars_toDigits (by decide) (by decide)]
  have normal : (Nat.toDigits 10 n.natAbs).length = 1 ∨ (Nat.toDigits 10 n.natAbs).head? ≠ some '0' := by
    by_cases zero : n.natAbs = 0
    · rw [zero]
      exact .inl rfl
    · exact .inr (head_toDigits zero)
  obtain ⟨plain, signed⟩ := numberOfChars?_digits digits Nat.toDigits_ne_nil normal
  rw [value] at plain signed
  by_cases negative : n < 0
  · simpa [numberText, Number.ofInt, negative] using signed
  · simpa [numberText, Number.ofInt, negative] using plain

theorem foldlM_number (tokens : List Token) (cs : List Char) {rest : List Char}
    (signs : ∀ c ∈ rest, isNumberChar c = true) :
    rest.foldlM Lexer.stepChar ⟨tokens, .number cs⟩ = some ⟨tokens, .number (rest.reverse ++ cs)⟩ := by
  induction rest generalizing cs with
  | nil => rfl
  | cons c rest ih =>
    obtain ⟨sign, signs⟩ := List.forall_mem_cons.1 signs
    have step : Lexer.stepChar ⟨tokens, .number cs⟩ c = some ⟨tokens, .number (c :: cs)⟩ := if_pos sign
    rw [List.foldlM_cons, step]
    show rest.foldlM Lexer.stepChar ⟨tokens, .number (c :: cs)⟩ = _
    rw [ih (c :: cs) signs, List.reverse_cons, List.append_assoc]
    rfl

theorem Lexer.ready_number (tokens : List Token) {cs : List Char} {n : Number}
    (reads : numberOfChars? cs.reverse = some n) : Lexer.Ready ⟨tokens, .number cs⟩ (.number n :: tokens) := by
  refine Lexer.ready_of_settle ?_ fun c stop => if_neg ?_
  · rw [Lexer.settle]
    simp only [reads, Option.map_some]
  · simp only [List.mem_cons, List.not_mem_nil, or_false] at stop
    rcases stop with rfl | rfl | rfl | rfl <;> decide

theorem begin_of_isDigit (tokens : List Token) {c : Char} (digit : c.isDigit = true) :
    Lexer.begin tokens c = some ⟨tokens, .number [c]⟩ := by
  unfold Lexer.begin
  split
  case h_8 =>
    have solid : isSpace c = false := by
      rw [Bool.eq_false_iff]
      intro space
      simp only [isSpace, Bool.or_eq_true, beq_iff_eq] at space
      rcases space with ((rfl | rfl) | rfl) | rfl <;> cases digit
    rw [if_neg (Bool.eq_false_iff.1 solid), if_pos (by rw [digit]; rfl)]
  all_goals cases digit

theorem lexes_numberText (n : Int) : Lexes (numberText (.ofInt n)) [.number (.ofInt n)] := by
  intro tokens
  have reads := numberOfChars?_numberText n
  have digits : ∀ c ∈ Nat.toDigits 10 n.natAbs, c.isDigit = true := fun c =>
    Nat.isDigit_of_mem_toDigits (by decide) (by decide)
  obtain ⟨first, rest, shape, starts, signs⟩ : ∃ first rest, numberText (.ofInt n) = first :: rest ∧
      (first.isDigit = true ∨ first = '-') ∧ ∀ c ∈ rest, c.isDigit = true := by
    by_cases negative : n < 0
    · refine ⟨'-', Nat.toDigits 10 n.natAbs, ?_, .inr rfl, digits⟩
      simp [numberText, Number.ofInt, negative]
    · obtain ⟨first, rest, shape⟩ := List.exists_cons_of_ne_nil (Nat.toDigits_ne_nil (n := n.natAbs) (b := 10))
      rw [shape] at digits
      obtain ⟨digit, digits⟩ := List.forall_mem_cons.1 digits
      refine ⟨first, rest, ?_, .inl digit, digits⟩
      simpa [numberText, Number.ofInt, negative] using shape
  have start : Lexer.begin tokens first = some ⟨tokens, .number [first]⟩ := by
    rcases starts with digit | rfl
    · exact begin_of_isDigit tokens digit
    · rfl
  have numeral : ∀ c ∈ rest, isNumberChar c = true := fun c member => by
    simp [isNumberChar, signs c member]
  have all := foldlM_number tokens [first] numeral
  rw [shape] at reads ⊢
  refine ⟨⟨tokens, .number (rest.reverse ++ [first])⟩, ?_, Lexer.ready_number tokens ?_⟩
  · rw [List.foldlM_cons, show Lexer.stepChar ⟨tokens, .nothing⟩ first = _ from start]
    exact all
  · rw [List.reverse_append, List.reverse_reverse]
    exact reads

theorem Lexer.ready_word (tokens : List Token) {cs : List Char} {t : Token}
    (reads : wordToken? (String.ofList cs.reverse) = some t) : Lexer.Ready ⟨tokens, .word cs⟩ (t :: tokens) := by
  refine Lexer.ready_of_settle ?_ fun c stop => if_neg ?_
  · rw [Lexer.settle]
    simp only [reads, Option.map_some]
  · simp only [List.mem_cons, List.not_mem_nil, or_false] at stop
    rcases stop with rfl | rfl | rfl | rfl <;> decide

theorem lexes_word {word : List Char} {t : Token}
    (starts : ∀ tokens, ∃ cs, word.foldlM Lexer.stepChar ⟨tokens, .nothing⟩ = some ⟨tokens, .word cs⟩ ∧
      wordToken? (String.ofList cs.reverse) = some t) : Lexes word [t] := by
  intro tokens
  obtain ⟨cs, reads, means⟩ := starts tokens
  exact ⟨_, reads, Lexer.ready_word tokens means⟩

theorem lexes_null : Lexes ['n', 'u', 'l', 'l'] [.null] :=
  lexes_word fun _ => ⟨['l', 'l', 'u', 'n'], rfl, rfl⟩

theorem lexes_true : Lexes ['t', 'r', 'u', 'e'] [.bool true] :=
  lexes_word fun _ => ⟨['e', 'u', 'r', 't'], rfl, rfl⟩

theorem lexes_false : Lexes ['f', 'a', 'l', 's', 'e'] [.bool false] :=
  lexes_word fun _ => ⟨['e', 's', 'l', 'a', 'f'], rfl, rfl⟩

/-- Whether some tokens are those of a value, wherever one may stand: they
take any reader of values that waits for one to where it has that one. -/
structure Builds (ts : List Token) (j : Json) : Prop where
  value : ∀ stack, ts.foldlM Builder.step (.value stack) = some (.after j stack)
  firstItem : ∀ stack, ts.foldlM Builder.step (.firstItem stack) = some (.after j (.item [] :: stack))

/-- Whether a text is that of a value. -/
def Writes (cs : List Char) (j : Json) : Prop := ∃ ts, Lexes cs ts ∧ Builds ts j

/-- Whether a text is that of the further items of an array and its end. -/
def WritesItems (cs : List Char) (items : List Json) : Prop :=
  ∃ ts, Ends cs ts ∧ ∀ v before stack, ts.foldlM Builder.step (.after v (.item before :: stack)) =
    some (.after (.array ((v :: before).reverse ++ items)) stack)

/-- Whether a text is that of the further members of an object
and its end. -/
def WritesMembers (cs : List Char) (members : List (Option String × Json)) : Prop :=
  ∃ ts, Ends cs ts ∧ ∀ v before name stack,
    ts.foldlM Builder.step (.after v (.member before name :: stack)) =
      some (.after (.object (((name, v) :: before).reverse ++ members)) stack)

theorem reads_nil : Reads [] [] := fun _ => rfl

theorem writesItems_itemChars {items : List Json} (writes : ∀ j ∈ items, Writes j.chars j) :
    WritesItems (itemChars items) items := by
  induction items with
  | nil =>
    refine ⟨[.endArray], Reads.ends rfl reads_nil, fun v before stack => ?_⟩
    rw [List.append_nil]
    rfl
  | cons item items ih =>
    obtain ⟨here, rest⟩ := List.forall_mem_cons.1 writes
    obtain ⟨ts, lexes, builds⟩ := here
    obtain ⟨ts', ends, builds'⟩ := ih rest
    refine ⟨.comma :: (ts ++ ts'), Reads.ends rfl (lexes.followed ends), fun v before stack => ?_⟩
    have next : Builder.step (.after v (.item before :: stack)) .comma =
        some (.value (.item (v :: before) :: stack)) := rfl
    have later := builds' item (v :: before) stack
    rw [List.foldlM_cons, next]
    show (ts ++ ts').foldlM Builder.step (.value (.item (v :: before) :: stack)) = _
    rw [List.foldlM_append, builds.value, List.append_cons, ← List.reverse_cons]
    exact later

theorem writes_array {items : List Json} (writes : ∀ j ∈ items, Writes j.chars j) :
    Writes (chars (.array items)) (.array items) := by
  cases items with
  | nil =>
    exact ⟨[.beginArray, .endArray], Reads.lexes fun _ => rfl, fun _ => rfl, fun _ => rfl⟩
  | cons item items =>
    obtain ⟨here, rest⟩ := List.forall_mem_cons.1 writes
    obtain ⟨ts, lexes, builds⟩ := here
    obtain ⟨ts', ends, builds'⟩ := writesItems_itemChars rest
    have opens : Reads ['['] [.beginArray] := fun _ => rfl
    have built : ∀ stack, (ts ++ ts').foldlM Builder.step (.firstItem stack) =
        some (.after (.array (item :: items)) stack) := by
      intro stack
      have later := builds' item [] stack
      rw [List.foldlM_append, builds.firstItem]
      exact later
    refine ⟨.beginArray :: (ts ++ ts'), ?_, fun stack => ?_, fun stack => ?_⟩
    · rw [chars]
      exact (opens.append (lexes.followed ends)).lexes
    · exact built stack
    · exact built (.item [] :: stack)

theorem reads_member {name : String} {cs cs' : List Char} {ts ts' : List Token} (lexes : Lexes cs ts)
    (ends : Ends cs' ts') :
    Reads (stringText name ++ ':' :: cs ++ cs') (.string (some name) :: .colon :: (ts ++ ts')) := by
  have value : Ends (':' :: (cs ++ cs')) (.colon :: (ts ++ ts')) := Reads.ends rfl (lexes.followed ends)
  have reads := (reads_stringText name).lexes.followed value
  rwa [← List.cons_append, ← List.append_assoc] at reads

theorem writesMembers_memberChars {members : List (String × Json)} (writes : ∀ m ∈ members, Writes m.2.chars m.2) :
    WritesMembers (memberChars (members.map fun m => (some m.1, m.2))) (members.map fun m => (some m.1, m.2)) := by
  induction members with
  | nil =>
    refine ⟨[.endObject], Reads.ends rfl reads_nil, fun v before name stack => ?_⟩
    rw [List.map_nil, List.append_nil]
    rfl
  | cons member members ih =>
    obtain ⟨name, j⟩ := member
    obtain ⟨here, rest⟩ := List.forall_mem_cons.1 writes
    obtain ⟨ts, lexes, builds⟩ := here
    obtain ⟨ts', ends, builds'⟩ := ih rest
    refine ⟨.comma :: .string (some name) :: .colon :: (ts ++ ts'), Reads.ends rfl (reads_member lexes ends),
      fun v before name' stack => ?_⟩
    have later := builds' j ((name', v) :: before) (some name) stack
    show (ts ++ ts').foldlM Builder.step (.value (.member ((name', v) :: before) (some name) :: stack)) = _
    rw [List.foldlM_append, builds.value, List.map_cons, List.append_cons, ← List.reverse_cons]
    exact later

theorem writes_object {members : List (String × Json)} (writes : ∀ m ∈ members, Writes m.2.chars m.2) :
    Writes (chars (ofMembers members)) (ofMembers members) := by
  cases members with
  | nil =>
    exact ⟨[.beginObject, .endObject], Reads.lexes fun _ => rfl, fun _ => rfl, fun _ => rfl⟩
  | cons member members =>
    obtain ⟨name, j⟩ := member
    obtain ⟨here, rest⟩ := List.forall_mem_cons.1 writes
    obtain ⟨ts, lexes, builds⟩ := here
    obtain ⟨ts', ends, builds'⟩ := writesMembers_memberChars rest
    have opens : Reads ['\x7b'] [.beginObject] := fun _ => rfl
    have built : ∀ stack, (ts ++ ts').foldlM Builder.step (.value (.member [] (some name) :: stack)) =
        some (.after (ofMembers ((name, j) :: members)) stack) := by
      intro stack
      have later := builds' j [] (some name) stack
      rw [List.foldlM_append, builds.value]
      exact later
    refine ⟨.beginObject :: .string (some name) :: .colon :: (ts ++ ts'), ?_, fun stack => ?_, fun stack => ?_⟩
    · rw [ofMembers, List.map_cons, chars]
      exact (opens.append (reads_member lexes ends)).lexes
    · exact built stack
    · exact built (.item [] :: stack)

theorem IsPlain.writes {j : Json} (plain : j.IsPlain) : Writes j.chars j := by
  -- An item's text is read the same wherever it stands, so the induction needs no more than the value.
  induction plain with
  | null => exact ⟨[.null], lexes_null, fun _ => rfl, fun _ => rfl⟩
  | bool b =>
    cases b with
    | true => exact ⟨[.bool true], lexes_true, fun _ => rfl, fun _ => rfl⟩
    | false => exact ⟨[.bool false], lexes_false, fun _ => rfl, fun _ => rfl⟩
  | int n => exact ⟨[.number (.ofInt n)], lexes_numberText n, fun _ => rfl, fun _ => rfl⟩
  | text s => exact ⟨[.string (some s)], (reads_stringText s).lexes, fun _ => rfl, fun _ => rfl⟩
  | array _ ih => exact writes_array ih
  | object _ ih => exact writes_object ih

theorem ofBytes?_text {j : Json} (plain : j.IsPlain) : ofBytes? (.ofText j.text) = some j := by
  obtain ⟨ts, lexes, builds⟩ := plain.writes
  obtain ⟨l, reads, ready⟩ := lexes []
  have tokens : tokens? (j.chars.map some) = some ts := by
    have steps : (j.chars.map some).foldlM Lexer.step Lexer.initial = some l := by
      rw [List.foldlM_map]
      exact reads
    rw [tokens?, steps, Option.bind_some, Lexer.finish, ready.settle, Option.map_some, List.append_nil,
      List.reverse_reverse]
  have value : ofTokens? ts = some j := by
    rw [ofTokens?, builds.value]
    rfl
  rw [ofBytes?, symbolsOfBytes_ofText, text, String.toList_ofList, tokens, Option.bind_some, value]

end Json

end AccountCache
