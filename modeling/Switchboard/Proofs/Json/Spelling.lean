import Switchboard.Json.Printer
import Switchboard.Json.Reader
import Switchboard.Proofs.Text.Decimals
/-!
# Spellings of JSON texts

Reading a text is scanning it and then reading the tokens: neither needs to know of the other. A
list of tokens has many spellings, as blanks may stand between any two of them, and every spelling
is scanned to its tokens. An object of natural numbers is read from any spelling, and the text that
is written for it is one.
-/
namespace Switchboard.Json

namespace Scanner

/-- The tokens that a scanner still gives out for the rest of a text. -/
def tokens? (s : Scanner) : List Char → Option (List Token)
  | [] => s.finish
  | c :: cs => do
    let (next, tokens) ← s.feed c
    return tokens ++ (← next.tokens? cs)

theorem tokens?_cons (s : Scanner) (c : Char) (cs : List Char) :
    s.tokens? (c :: cs) = (s.feed c).bind fun fed => (fed.1.tokens? cs).map (fed.2 ++ ·) := by
  simp only [tokens?, Option.bind_eq_bind, Option.pure_def, Option.map_eq_bind]
  rfl

theorem tokens?_cons_of_feed {s next : Scanner} {c : Char} {tokens : List Token}
    (h : s.feed c = some (next, tokens)) (cs : List Char) :
    s.tokens? (c :: cs) = (next.tokens? cs).map (tokens ++ ·) := by
  rw [tokens?_cons, h, Option.bind_some]

end Scanner

theorem Reader.feedAll_append (r : Reader) (front back : List Token) :
    r.feedAll (front ++ back) = (r.feedAll front).bind (·.feedAll back) :=
  List.foldlM_append

/-- A scanner and a reader that work character by character do the same as one after the other. -/
theorem foldlM_feedChar (scanner : Scanner) (reader : Reader) (cs : List Char) :
    ((cs.foldlM feedChar (scanner, reader)).bind fun state =>
        state.1.finish.bind fun last => (state.2.feedAll last).bind Reader.result?) =
      (scanner.tokens? cs).bind fun tokens => (reader.feedAll tokens).bind Reader.result? := by
  induction cs generalizing scanner reader with
  | nil => rfl
  | cons c cs ih =>
    have hfeed : feedChar (scanner, reader) c = (scanner.feed c).bind fun fed =>
        (reader.feedAll fed.2).map fun next => (fed.1, next) := by
      simp only [feedChar, Option.bind_eq_bind, Option.pure_def, Option.map_eq_bind]
      rfl
    rw [List.foldlM_cons, hfeed, Scanner.tokens?_cons]
    cases scanner.feed c with
    | none => rfl
    | some fed =>
      simp only [Option.bind_some, Option.bind_map, Function.comp_def, Reader.feedAll_append,
        Option.bind_eq_bind]
      cases reader.feedAll fed.2 with
      | none =>
        -- a reader that refused a token refuses whatever comes after it
        cases fed.1.tokens? cs <;> rfl
      | some next => simpa using ih fed.1 next

theorem read?_eq (text : String) :
    read? text = (Scanner.between.tokens? text.toList).bind fun tokens =>
      (Reader.feedAll {} tokens).bind Reader.result? :=
  foldlM_feedChar .between {} text.toList

/-! ## Spellings -/

/-- A character that stands for itself between quotes. -/
def IsPlain (c : Char) : Prop := c ≠ '"' ∧ c ≠ '\\' ∧ ¬ c < ' '

instance (c : Char) : Decidable (IsPlain c) :=
  inferInstanceAs (Decidable (_ ∧ _ ∧ _))

/-- The ways in which tokens can be written, with blanks wherever they may stand: marks, texts
without escapes, and natural numbers, each of which ends before a character that no number has. -/
inductive Spells : List Token → List Char → Prop
  | done : Spells [] []
  | blank {c tokens cs} (hc : isSpace c = true) (hrest : Spells tokens cs) :
      Spells tokens (c :: cs)
  | mark {c token tokens cs} (hc : ofMark? c = some token) (hrest : Spells tokens cs) :
      Spells (token :: tokens) (c :: cs)
  | text {s tokens cs} (hs : ∀ c ∈ String.toList s, IsPlain c) (hrest : Spells tokens cs) :
      Spells (.text s :: tokens) ('"' :: s.toList ++ '"' :: cs)
  | natural {v : UInt64} {tokens cs} (hend : ∀ c ∈ cs.head?, isNumeric c = false)
      (hrest : Spells tokens cs) :
      Spells (.atom (.number (.natural v)) :: tokens) ((toString v).toList ++ cs)

namespace Scanner

theorem start_of_isSpace {c : Char} (hc : isSpace c = true) : start c = some (between, []) := by
  simp [start, hc]

theorem start_of_ofMark? {c : Char} {token : Token} (hc : ofMark? c = some token) :
    start c = some (between, [token]) := by
  unfold ofMark? at hc
  split_ifs at hc with h₁ h₂ h₃ h₄ h₅ h₆
  all_goals
    obtain rfl := Option.some.inj hc
    subst c
    rfl

theorem start_of_isDigit {c : Char} (hc : c.isDigit = true) :
    start c = some (number [c], []) := by
  have hspace : isSpace c = false := by
    simp only [isSpace, Bool.or_eq_false_iff, decide_eq_false_iff_not]
    exact ⟨⟨⟨Text.ne_of_isDigit hc rfl, Text.ne_of_isDigit hc rfl⟩, Text.ne_of_isDigit hc rfl⟩,
      Text.ne_of_isDigit hc rfl⟩
  simp [start, hspace, hc, Text.ne_of_isDigit hc (d := '"') rfl]

/-- Between quotes, characters that stand for themselves are collected. -/
theorem tokens?_text (s collected cs : List Char) (hs : ∀ c ∈ s, IsPlain c) :
    (text collected).tokens? (s ++ '"' :: cs) =
      (between.tokens? cs).map (.text (String.ofList (collected.reverse ++ s)) :: ·) := by
  induction s generalizing collected with
  | nil =>
    have hclose : feed (text collected) '"' =
        some (between, [.text (String.ofList collected.reverse)]) := rfl
    rw [List.nil_append, tokens?_cons_of_feed hclose, List.append_nil]
    rfl
  | cons c s ih =>
    obtain ⟨⟨hquote, hslash, hlow⟩, hrest⟩ := List.forall_mem_cons.mp hs
    have hfeed : feed (text collected) c = some (text (c :: collected), []) := by
      simp [feed, hquote, hslash, hlow]
    simp [tokens?_cons_of_feed hfeed, ih _ hrest, Function.comp_def]

/-- Inside a number, digits are collected. -/
theorem tokens?_digits (digits collected cs : List Char) (hdigits : ∀ c ∈ digits, c.isDigit = true) :
    (number collected).tokens? (digits ++ cs) =
      (number (digits.reverse ++ collected)).tokens? cs := by
  induction digits generalizing collected with
  | nil => rfl
  | cons c digits ih =>
    obtain ⟨hc, hrest⟩ := List.forall_mem_cons.mp hdigits
    have hfeed : feed (number collected) c = some (number (c :: collected), []) := by
      simp [feed, isNumeric, hc]
    simp [tokens?_cons_of_feed hfeed, ih _ hrest]

/-- A number is complete at the first character that no number has, which begins what is next. -/
theorem tokens?_number {chars cs : List Char} {n : JsonNumber}
    (hn : JsonNumber.read? chars.reverse = some n) (hend : ∀ c ∈ cs.head?, isNumeric c = false) :
    (number chars).tokens? cs = (between.tokens? cs).map (.atom (.number n) :: ·) := by
  cases cs with
  | nil => simp [tokens?, finish, hn]
  | cons c cs =>
    have hfeed : feed (number chars) c =
        (start c).map fun begun => (begun.1, .atom (.number n) :: begun.2) := by
      have hc : isNumeric c = false := hend c rfl
      simp only [feed, hc, Bool.false_eq_true, if_false, hn, Option.bind_eq_bind,
        Option.bind_some, Option.pure_def, Option.map_eq_bind]
      rfl
    rw [tokens?_cons, tokens?_cons, hfeed, feed]
    cases start c with
    | none => rfl
    | some begun => simp [Function.comp_def]

end Scanner

/-- Every spelling is scanned to its tokens. -/
theorem Spells.tokens? {tokens : List Token} {cs : List Char} (h : Spells tokens cs) :
    Scanner.between.tokens? cs = some tokens := by
  induction h with
  | done => rfl
  | blank hc hrest ih => simp [Scanner.tokens?_cons, Scanner.feed, Scanner.start_of_isSpace hc, ih]
  | mark hc hrest ih => simp [Scanner.tokens?_cons, Scanner.feed, Scanner.start_of_ofMark? hc, ih]
  | @text s tokens cs hs hrest ih =>
    have hopen : Scanner.feed .between '"' = some (.text [], []) := rfl
    rw [List.cons_append, Scanner.tokens?_cons_of_feed hopen]
    simp [Scanner.tokens?_text _ _ _ hs, ih]
  | @natural v tokens cs hend hrest ih =>
    have hread : JsonNumber.read? (toString v).toList = some (.natural v) := by
      rw [Text.toList_toString]
      exact JsonNumber.read?_toDigits v
    have hdigits : ∀ c ∈ (toString v).toList, c.isDigit = true := fun _ hc =>
      Text.isDigit_of_mem_toString hc
    cases hchars : (toString v).toList with
    | nil =>
      rw [Text.toList_toString] at hchars
      exact absurd hchars Nat.toDigits_ne_nil
    | cons c digits =>
      rw [hchars] at hread hdigits
      obtain ⟨hc, hmore⟩ := List.forall_mem_cons.mp hdigits
      have hcomplete : JsonNumber.read? (digits.reverse ++ [c]).reverse = some (.natural v) := by
        simpa using hread
      have hbegin : Scanner.feed .between c = some (.number [c], []) := Scanner.start_of_isDigit hc
      rw [List.cons_append, Scanner.tokens?_cons_of_feed hbegin]
      simp [Scanner.tokens?_digits _ _ _ hmore, Scanner.tokens?_number hcomplete hend, ih]

/-! ## Objects of natural numbers -/

/-- The value of an object of natural numbers. -/
def ofNaturals (members : List (String × UInt64)) : Json :=
  .object (members.map fun m => (m.1, .number (.natural m.2)))

/-- The tokens of a member. -/
def memberTokens (m : String × UInt64) : List Token :=
  [.text m.1, .colon, .atom (.number (.natural m.2))]

/-- The tokens of members that follow one another. -/
def memberListTokens : List (String × UInt64) → List Token
  | [] => []
  | [m] => memberTokens m
  | m :: members => memberTokens m ++ .comma :: memberListTokens members

/-- The tokens of an object of natural numbers. -/
def naturalsTokens (members : List (String × UInt64)) : List Token :=
  .openObject :: memberListTokens members ++ [.closeObject]

namespace Reader

/-- Members are put into the innermost object, the last one first. -/
theorem feedAll_memberListTokens (m : String × UInt64) (members : List (String × UInt64))
    (before : List (String × Json)) (outer : List Frame) {awaited : Awaited}
    (hkey : awaited = .key ∨ awaited = .firstKey) :
    feedAll ⟨.object before :: outer, awaited⟩ (memberListTokens (m :: members)) =
      some ⟨.object (((m :: members).map fun m => (m.1, .number (.natural m.2))).reverse ++ before) ::
        outer, .separator⟩ := by
  have hmember : ∀ tokens, feedAll ⟨.object before :: outer, awaited⟩ (memberTokens m ++ tokens) =
      feedAll ⟨.object ((m.1, .number (.natural m.2)) :: before) :: outer, .separator⟩ tokens := by
    rcases hkey with rfl | rfl
    · exact fun _ => rfl
    · exact fun _ => rfl
  induction members generalizing m before awaited with
  | nil =>
    rw [memberListTokens, ← List.append_nil (memberTokens m), hmember]
    rfl
  | cons next members ih =>
    rw [memberListTokens, hmember]
    · have hcomma : ∀ stack tokens, feedAll ⟨.object stack :: outer, .separator⟩ (.comma :: tokens) =
          feedAll ⟨.object stack :: outer, .key⟩ tokens := fun _ _ => rfl
      rw [hcomma, ih next _ (.inl rfl) fun _ => rfl]
      simp
    · simp

theorem feedAll_naturalsTokens (members : List (String × UInt64)) :
    feedAll {} (naturalsTokens members) = some ⟨[], .nothing (ofNaturals members)⟩ := by
  have hopen : ∀ tokens, feedAll {} (.openObject :: tokens) =
      feedAll ⟨[.object []], .firstKey⟩ tokens := fun _ => rfl
  rw [naturalsTokens, List.cons_append, hopen]
  cases members with
  | nil => rfl
  | cons m members =>
    rw [feedAll_append, feedAll_memberListTokens m members [] [] (.inr rfl), Option.bind_some,
      List.append_nil]
    simp [feedAll, feed, endObject, put, ofNaturals]

end Reader

/-- An object of natural numbers is read from any of its spellings. -/
theorem Spells.read?_ofNaturals {members : List (String × UInt64)} {text : String}
    (h : Spells (naturalsTokens members) text.toList) :
    read? text = some (ofNaturals members) := by
  rw [read?_eq, h.tokens?]
  simp [Reader.feedAll_naturalsTokens, Reader.result?]

/-! ## The text that is written -/

theorem flatMap_escapeChar {cs : List Char} (hcs : ∀ c ∈ cs, IsPlain c) :
    cs.flatMap escapeChar = cs := by
  induction cs with
  | nil => rfl
  | cons c cs ih =>
    obtain ⟨⟨hquote, hslash, hlow⟩, hrest⟩ := List.forall_mem_cons.mp hcs
    rw [List.flatMap_cons, ih hrest]
    simp [escapeChar, hquote, hslash, hlow]

/-- A plain text is written as it is, between quotes. -/
theorem toList_renderText {s : String} (hs : ∀ c ∈ s.toList, IsPlain c) :
    (renderText s).toList = '"' :: s.toList ++ ['"'] := by
  simp [renderText, flatMap_escapeChar hs]

theorem spells_member {m : String × UInt64} (hm : ∀ c ∈ m.1.toList, IsPlain c)
    {tokens : List Token} {cs : List Char} (hend : ∀ c ∈ cs.head?, isNumeric c = false)
    (hrest : Spells tokens cs) :
    Spells (memberTokens m ++ tokens)
      ((renderText m.1 ++ ":" ++ render (.number (.natural m.2))).toList ++ cs) := by
  have hvalue := Spells.natural (v := m.2) hend hrest
  have hcolon : Spells (.colon :: _) (':' :: _) := .mark rfl hvalue
  have hkey := Spells.text hm hcolon
  have hnumber : render (.number (.natural m.2)) = toString m.2 := by
    rw [render]
    rfl
  simpa [hnumber, toList_renderText hm, memberTokens] using hkey

theorem spells_memberList {members : List (String × UInt64)}
    (hkeys : ∀ m ∈ members, ∀ c ∈ m.1.toList, IsPlain c) {tokens : List Token} {cs : List Char}
    (hend : ∀ c ∈ cs.head?, isNumeric c = false) (hrest : Spells tokens cs) :
    Spells (memberListTokens members ++ tokens)
      ((String.intercalate "," (renderMembers
        (members.map fun m => (m.1, .number (.natural m.2))))).toList ++ cs) := by
  induction members with
  | nil => simpa [memberListTokens, renderMembers] using hrest
  | cons m members ih =>
    obtain ⟨hm, hmore⟩ := List.forall_mem_cons.mp hkeys
    cases members with
    | nil => simpa [memberListTokens, renderMembers] using spells_member hm hend hrest
    | cons next members =>
      have hcomma : Spells (.comma :: _) (',' :: _) := .mark rfl (ih hmore)
      have hfirst := spells_member hm (by simp [isNumeric]) hcomma
      simpa [memberListTokens, renderMembers] using hfirst

/-- The text that is written for an object of natural numbers is one of its spellings. -/
theorem spells_render {members : List (String × UInt64)}
    (hkeys : ∀ m ∈ members, ∀ c ∈ m.1.toList, IsPlain c) :
    Spells (naturalsTokens members) (render (ofNaturals members)).toList := by
  have hclose : Spells [.closeObject] ['\x7d'] := .mark rfl .done
  have hmembers := spells_memberList hkeys (by simp [isNumeric]) hclose
  have hopen : Spells (.openObject :: _) ('\x7b' :: _) := .mark rfl hmembers
  simpa [naturalsTokens, ofNaturals, render] using hopen

end Switchboard.Json
