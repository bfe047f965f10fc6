import Cascade.Journal.Outlet
import Cascade.Json.Reader
import Cascade.Proofs.ByteOrder
import Cascade.Proofs.Ordering
import Cascade.Proofs.ReadBack

/-!
# Lines of the journal are read back

A quoted text is read as the text, whatever stands in it, and it never contains
a line feed.  So a line of the journal is one JSON object and nothing else, with
the event, the severity and the fields by ascending bytes of their keys; no
value can end the line early or add a member to it.
-/

namespace Cascade

namespace Json

/-! ## Quoted texts -/

theorem hexValue?_hexDigit : ∀ n < 16, Lexer.hexValue? (hexDigit n) = some n := by
  decide

theorem hexDigit_ne_lineFeed : ∀ n < 16, hexDigit n ≠ '\n' := by
  decide

/-- What is gathered of a character that is written in a quoted text. -/
inductive Piece.Spells : Piece → Char → Prop
  | plain (c : Char) : Spells (.plain c) c
  | unit {c : Char} (h : c.toNat < 0x20) : Spells (.unit c.toNat) c

theorem Piece.Spells.charsAfter
    {piece : Piece} {c : Char} (h : piece.Spells c) (rest : List Piece) :
    charsAfter none (piece :: rest) = (charsAfter none rest).map (c :: ·) := by
  cases h with
  | plain => rfl
  | unit h =>
      have hhigh : isHigh c.toNat = false := by simp [isHigh]; omega
      have hlow : isLow c.toNat = false := by simp [isLow]; omega
      simp [Piece.charsAfter, hhigh, hlow, Char.ofNat_toNat]

namespace Lexer

theorem run_append (lexer : Lexer) (front back : List Char) :
    run lexer (front ++ back) = (run lexer front).bind (fun next => run next back) := by
  induction front generalizing lexer with
  | nil => rfl
  | cons c front ih =>
      simp only [List.cons_append, run]
      cases lexer.step c with
      | none => rfl
      | some next => exact ih next

/-- A character that is written in a quoted text is gathered as that character. -/
theorem run_escape (c : Char) (held : List Piece) (done : List Token) :
    ∃ piece, run ⟨.string held, done⟩ (escape c) = some ⟨.string (piece :: held), done⟩ ∧
      piece.Spells c := by
  by_cases hquote : c = '"'
  · subst hquote
    exact ⟨_, rfl, .plain _⟩
  by_cases hbackslash : c = '\\'
  · subst hbackslash
    exact ⟨_, rfl, .plain _⟩
  by_cases hbackspace : c = '\x08'
  · subst hbackspace
    exact ⟨_, rfl, .plain _⟩
  by_cases hformFeed : c = '\x0c'
  · subst hformFeed
    exact ⟨_, rfl, .plain _⟩
  by_cases hlineFeed : c = '\n'
  · subst hlineFeed
    exact ⟨_, rfl, .plain _⟩
  by_cases hreturn : c = '\r'
  · subst hreturn
    exact ⟨_, rfl, .plain _⟩
  by_cases htab : c = '\t'
  · subst htab
    exact ⟨_, rfl, .plain _⟩
  unfold escape
  simp only [hquote, hbackslash, hbackspace, hformFeed, hlineFeed, hreturn, htab, if_false]
  by_cases hcontrol : c.toNat < 0x20
  · have hzero : hexValue? '0' = some 0 := by decide
    have hhigh := hexValue?_hexDigit (c.toNat / 16) (by omega)
    have hlow := hexValue?_hexDigit (c.toNat % 16) (by omega)
    have hvalue : c.toNat / 16 * 16 + c.toNat % 16 = c.toNat := by omega
    refine ⟨.unit c.toNat, ?_, .unit hcontrol⟩
    simp [hcontrol, run, step, hzero, hhigh, hlow, hvalue]
  · refine ⟨.plain c, ?_, .plain c⟩
    simp [hcontrol, run, step, hquote, hbackslash]

theorem run_escapes (chars : List Char) (held : List Piece) (done : List Token) :
    ∃ pieces, run ⟨.string held, done⟩ (chars.flatMap escape) =
        some ⟨.string (pieces.reverse ++ held), done⟩ ∧
      Piece.charsAfter none pieces = some chars := by
  induction chars generalizing held with
  | nil => exact ⟨[], rfl, rfl⟩
  | cons c rest ih =>
      obtain ⟨piece, hrun, hspells⟩ := run_escape c held done
      obtain ⟨pieces, hrest, hchars⟩ := ih (piece :: held)
      refine ⟨piece :: pieces, ?_, ?_⟩
      · rw [List.flatMap_cons, run_append, hrun, Option.bind_some, hrest]
        simp
      · rw [hspells.charsAfter, hchars]
        rfl

theorem run_quote (text : String) (done : List Token) :
    run ⟨.between, done⟩ (quote text) = some ⟨.between, .string (some text) :: done⟩ := by
  obtain ⟨pieces, hrun, hchars⟩ := run_escapes text.toList [] done
  have htext : Piece.text? pieces = some text := by
    rw [Piece.text?, hchars, Option.map_some, String.ofList_toList]
  rw [List.append_nil] at hrun
  have hopen : run ⟨.between, done⟩ ['"'] = some ⟨.string [], done⟩ := rfl
  rw [quote, ← List.singleton_append, List.append_assoc, run_append, hopen, Option.bind_some,
    run_append, hrun, Option.bind_some]
  simp [run, step, htext]

end Lexer

theorem lineFeed_not_mem_escape (c : Char) : '\n' ∉ escape c := by
  by_cases hcontrol : c.toNat < 0x20
  · have hhigh := hexDigit_ne_lineFeed (c.toNat / 16) (by omega)
    have hlow := hexDigit_ne_lineFeed (c.toNat % 16) (by omega)
    grind [escape]
  · have hne : c ≠ '\n' := fun h => hcontrol (h ▸ by decide)
    grind [escape]

theorem lineFeed_not_mem_quote (text : String) : '\n' ∉ quote text := by
  simp [quote, lineFeed_not_mem_escape]

end Json

namespace Journal

open Json

/-! ## The object of a line -/

def members (severity : Severity) (event : String) (fields : List Field) : List Field :=
  ("event", event) :: lineFields severity fields

def fieldTokens (field : Field) : List Token :=
  [.comma, .string (some field.1), .colon, .string (some field.2)]

def spelled (fields : List Field) : Document :=
  .object (fields.map (fun field => (some field.1, .string field.2)))

theorem run_writeField (field : Field) (done : List Token) :
    Lexer.run ⟨.between, done⟩ (writeField field) =
      some ⟨.between, (fieldTokens field).reverse ++ done⟩ := by
  have hcomma : ∀ done, Lexer.run ⟨.between, done⟩ [','] = some ⟨.between, .comma :: done⟩ :=
    fun _ => rfl
  have hcolon : ∀ done, Lexer.run ⟨.between, done⟩ [':'] = some ⟨.between, .colon :: done⟩ :=
    fun _ => rfl
  have hfield : writeField field = [','] ++ (quote field.1 ++ ([':'] ++ quote field.2)) := rfl
  rw [hfield, Lexer.run_append, hcomma, Option.bind_some, Lexer.run_append, Lexer.run_quote,
    Option.bind_some, Lexer.run_append, hcolon, Option.bind_some, Lexer.run_quote]
  rfl

theorem run_writeFields (fields : List Field) (done : List Token) :
    Lexer.run ⟨.between, done⟩ (fields.flatMap writeField) =
      some ⟨.between, (fields.flatMap fieldTokens).reverse ++ done⟩ := by
  induction fields generalizing done with
  | nil => rfl
  | cons field rest ih =>
      rw [List.flatMap_cons, Lexer.run_append, run_writeField, Option.bind_some, ih]
      simp

theorem run_blanks
    {chars : List Char} (h : ∀ c ∈ chars, Lexer.isSpace c) (done : List Token) :
    Lexer.run ⟨.between, done⟩ chars = some ⟨.between, done⟩ := by
  induction chars with
  | nil => rfl
  | cons c rest ih =>
      obtain ⟨hc, hrest⟩ := List.forall_mem_cons.1 h
      have hstart : Lexer.step ⟨.between, done⟩ c = some ⟨.between, done⟩ := by
        rcases (by simpa [Lexer.isSpace, or_assoc] using hc :
          c = ' ' ∨ c = '\t' ∨ c = '\n' ∨ c = '\r') with rfl | rfl | rfl | rfl <;> rfl
      rw [Lexer.run, hstart]
      exact ih hrest

/-- A line consists of the tokens of its members, whatever blanks stand behind it. -/
theorem tokens?_writeObject
    (severity : Severity) (event : String) (fields : List Field)
    {blanks : List Char} (h : ∀ c ∈ blanks, Lexer.isSpace c) :
    tokens? (writeObject severity event fields ++ blanks) =
      some ([.openObject, .string (some "event"), .colon, .string (some event)] ++
        (lineFields severity fields).flatMap fieldTokens ++ [.closeObject]) := by
  have hopen : ∀ done, Lexer.run ⟨.between, done⟩ ['{'] = some ⟨.between, .openObject :: done⟩ :=
    fun _ => rfl
  have hclose : ∀ done, Lexer.run ⟨.between, done⟩ ['}'] = some ⟨.between, .closeObject :: done⟩ :=
    fun _ => rfl
  have hcolon : ∀ done, Lexer.run ⟨.between, done⟩ [':'] = some ⟨.between, .colon :: done⟩ :=
    fun _ => rfl
  have hobject : writeObject severity event fields ++ blanks =
      ['{'] ++ (quote "event" ++ ([':'] ++ (quote event ++
        ((lineFields severity fields).flatMap writeField ++ (['}'] ++ blanks))))) := by
    simp [writeObject]
  rw [tokens?, hobject, Lexer.run_append, hopen, Option.bind_some, Lexer.run_append,
    Lexer.run_quote, Option.bind_some, Lexer.run_append, hcolon, Option.bind_some,
    Lexer.run_append, Lexer.run_quote, Option.bind_some, Lexer.run_append, run_writeFields,
    Option.bind_some, Lexer.run_append, hclose, Option.bind_some, run_blanks h]
  simp [Lexer.settle]

theorem run_fieldTokens
    (fields : List Field) (before : List (Option String × Document)) :
    Reader.run (.afterMember before []) (fields.flatMap fieldTokens ++ [.closeObject]) =
      some (.done (.object (before.reverse ++
        fields.map (fun field => (some field.1, .string field.2))))) := by
  induction fields generalizing before with
  | nil => simp [Reader.run, Reader.step, Reader.closeObject, Reader.complete, Document.bounded,
      Document.hasAtMost]
  | cons field rest ih =>
      have hfield : ∀ tokens, Reader.run (.afterMember before []) (fieldTokens field ++ tokens) =
          Reader.run (.afterMember ((some field.1, .string field.2) :: before) []) tokens :=
        fun _ => rfl
      rw [List.flatMap_cons, List.append_assoc, hfield, ih]
      simp

theorem read?_writeObject
    (severity : Severity) (event : String) (fields : List Field)
    {blanks : List Char} (h : ∀ c ∈ blanks, Lexer.isSpace c) :
    Document.read? (writeObject severity event fields ++ blanks) =
      some (spelled (members severity event fields)) := by
  have hfirst : ∀ tokens, Reader.run (.value [])
      ([.openObject, .string (some "event"), .colon, .string (some event)] ++ tokens) =
        Reader.run (.afterMember [(some "event", .string event)] []) tokens :=
    fun _ => rfl
  rw [Document.read?, tokens?_writeObject severity event fields h]
  simp only [List.append_assoc, hfirst, run_fieldTokens]
  rfl

theorem ofText?_object (severity : Severity) (event : String) (fields : List Field) :
    Document.ofText? (object severity event fields) =
      some (spelled (members severity event fields)) := by
  rw [Document.ofText?, object, String.toList_ofList]
  simpa using read?_writeObject severity event fields (List.forall_mem_nil _)

theorem ofText?_line (severity : Severity) (event : String) (fields : List Field) :
    Document.ofText? (line severity event fields) =
      some (spelled (members severity event fields)) := by
  rw [Document.ofText?, line, String.toList_ofList]
  exact read?_writeObject severity event fields (List.forall_mem_singleton.2 rfl)

theorem exists_value?_spelled {fields : List Field} (h : (fields.map Prod.fst).Nodup) :
    ∃ members, (spelled fields).value? = some (.object members) ∧
      members.Perm (fields.map (fun field => (field.1, Value.string field.2))) := by
  have hmembers : Document.members? (fields.map (fun field => (some field.1, .string field.2))) =
      some (fields.map (fun field => (field.1, Value.string field.2))) := by
    clear h
    induction fields with
    | nil => rfl
    | cons field rest ih => simp [Document.members?, Document.value?, ih]
  refine ⟨_, by rw [spelled, Document.value?, hmembers, Option.map_some], ?_⟩
  apply Assoc.collect_perm
  simpa [List.map_map, Function.comp_def] using h

theorem lineFeed_not_mem_writeObject
    (severity : Severity) (event : String) (fields : List Field) :
    '\n' ∉ writeObject severity event fields := by
  simp [writeObject, writeField, lineFeed_not_mem_quote]

/-! ## Fields by key -/

section Sorted

variable {fields : List Field}

theorem keyPrecedes_iff {a b : Field} : keyPrecedes a b ↔ a.1 < b.1 := by
  simp [keyPrecedes]

theorem pairwise_comparable (h : (fields.map Prod.fst).Nodup) :
    fields.Pairwise (fun a b => keyPrecedes a b ∨ keyPrecedes b a) := by
  refine (List.pairwise_map.1 h).imp (fun {a b} hne => ?_)
  by_cases hab : a.1 < b.1
  · exact Or.inl (keyPrecedes_iff.2 hab)
  · by_cases hba : b.1 < a.1
    · exact Or.inr (keyPrecedes_iff.2 hba)
    · exact absurd (KeyOrder.eq_of_not_lt hab hba) hne

theorem keyPrecedes_trans {a b c : Field} (hab : keyPrecedes a b) (hbc : keyPrecedes b c) :
    keyPrecedes a c :=
  keyPrecedes_iff.2 (String.lt_trans (keyPrecedes_iff.1 hab) (keyPrecedes_iff.1 hbc))

theorem not_keyPrecedes_self (a : Field) : ¬keyPrecedes a a :=
  fun h => String.lt_irrefl _ (keyPrecedes_iff.1 h)

theorem pairwise_bytes_sortBy (h : (fields.map Prod.fst).Nodup) :
    (sortBy keyPrecedes fields).Pairwise (fun a b => Text.bytes a.1 < Text.bytes b.1) :=
  (pairwise_sortBy keyPrecedes keyPrecedes_trans (pairwise_comparable h)).imp
    (fun hlt => Text.bytes_lt_iff.2 (keyPrecedes_iff.1 hlt))

theorem line_eq_of_perm
    (severity : Severity) (event : String) (h : (fields.map Prod.fst).Nodup)
    {others : List Field} (hperm : others.Perm fields) :
    line severity event others = line severity event fields := by
  rw [line, writeObject, lineFields, sortBy_eq_of_perm keyPrecedes keyPrecedes_trans
    not_keyPrecedes_self (pairwise_comparable h) hperm]
  rfl

theorem nodup_members
    (severity : Severity) (event : String) (h : (fields.map Prod.fst).Nodup)
    (hown : ∀ field ∈ fields, field.1 ≠ "event" ∧ field.1 ≠ "severity") :
    ((members severity event fields).map Prod.fst).Nodup := by
  have hsorted := sortBy_perm keyPrecedes fields
  have hevent : "event" ∉ fields.map Prod.fst := by
    intro hmem
    obtain ⟨field, hfield, hkey⟩ := List.mem_map.1 hmem
    exact (hown field hfield).1 hkey
  have hseverity : "severity" ∉ fields.map Prod.fst := by
    intro hmem
    obtain ⟨field, hfield, hkey⟩ := List.mem_map.1 hmem
    exact (hown field hfield).2 hkey
  have hall : ("event" :: "severity" :: fields.map Prod.fst).Nodup := by
    simp only [List.nodup_cons, List.mem_cons, not_or]
    exact ⟨⟨by decide, hevent⟩, hseverity, h⟩
  exact (((hsorted.map Prod.fst).cons "severity").cons "event").nodup_iff.2 hall

end Sorted

/-- A line is one JSON object with a line feed behind it and no other one in it: the event, the
severity and the fields, listed by ascending bytes of their keys, with their texts as they were
given.  It does not depend on the order in which the fields are given. -/
theorem line_faithful
    (severity : Severity) (event : String) {fields : List Field}
    (hkeys : (fields.map Prod.fst).Nodup)
    (hown : ∀ field ∈ fields, field.1 ≠ "event" ∧ field.1 ≠ "severity") :
    (∃ chars, '\n' ∉ chars ∧ (line severity event fields).toList = chars ++ ['\n']) ∧
    (∃ listed, listed.Perm fields ∧
      listed.Pairwise (fun a b => Text.bytes a.1 < Text.bytes b.1) ∧
      Document.ofText? (line severity event fields) =
        some (spelled (("event", event) :: ("severity", severity.name) :: listed))) ∧
    (∃ members, (Document.ofText? (line severity event fields)).bind Document.value? =
        some (.object members) ∧
      members.Perm ((("event", event) :: ("severity", severity.name) :: fields).map
        (fun field => (field.1, Value.string field.2)))) ∧
    ∀ others : List Field, others.Perm fields →
      line severity event others = line severity event fields := by
  have hsorted := sortBy_perm keyPrecedes fields
  refine ⟨⟨writeObject severity event fields, lineFeed_not_mem_writeObject _ _ _,
    String.toList_ofList⟩, ⟨sortBy keyPrecedes fields, hsorted, pairwise_bytes_sortBy hkeys,
      ofText?_line _ _ _⟩, ?_, fun others => line_eq_of_perm severity event hkeys⟩
  obtain ⟨kept, hvalue, hkept⟩ :=
    exists_value?_spelled (nodup_members severity event hkeys hown)
  refine ⟨kept, by rw [ofText?_line, Option.bind_some, hvalue], hkept.trans ?_⟩
  exact ((hsorted.cons _).cons _).map _

/-- A statement with quotes and a line feed, a blank key, and a key that comes behind `severity`. -/
def quoting : List Field :=
  [("sql", "select \"a\"\nfrom b"), ("", "\\n"), ("severity ", "\x00")]

theorem line_faithful_of_quoting :
    (quoting.map Prod.fst).Nodup ∧
      (∀ field ∈ quoting, field.1 ≠ "event" ∧ field.1 ≠ "severity") ∧
      ∃ listed, listed.Perm quoting ∧
        listed.Pairwise (fun a b => Text.bytes a.1 < Text.bytes b.1) ∧
        Document.ofText? (line .warn "SQL" quoting) =
          some (spelled (("event", "SQL") :: ("severity", "WARN") :: listed)) := by
  have hkeys : (quoting.map Prod.fst).Nodup := by
    decide
  have hown : ∀ field ∈ quoting, field.1 ≠ "event" ∧ field.1 ≠ "severity" := by
    decide
  exact ⟨hkeys, hown, (line_faithful .warn "SQL" hkeys hown).2.1⟩

/-! ## What a line tells -/

def textsOf : Document → List Field
  | .object members => members.filterMap (fun member =>
      match member with
      | (some key, .string text) => some (key, text)
      | _ => none)
  | _ => []

/-- What a line tells under a key when it is read. -/
def told? (key line : String) : Option String :=
  (Document.ofText? line).bind (fun document => Assoc.get? key (textsOf document))

theorem textsOf_spelled (fields : List Field) : textsOf (spelled fields) = fields := by
  rw [spelled, textsOf, List.filterMap_map]
  exact List.filterMap_some

theorem told?_object (key : String) (severity : Severity) (event : String) (fields : List Field) :
    told? key (object severity event fields) = Assoc.get? key (members severity event fields) := by
  rw [told?, ofText?_object, Option.bind_some, textsOf_spelled]

def Entry.text (entry : Entry) : String :=
  object entry.severity entry.name entry.fields

theorem told?_event (entry : Entry) : told? "event" entry.text = some entry.name := by
  rw [Entry.text, told?_object]
  rfl

theorem Entry.keys_fields (entry : Entry) :
    (entry.fields.map Prod.fst).Nodup ∧
      ∀ field ∈ entry.fields, field.1 ≠ "event" ∧ field.1 ≠ "severity" := by
  cases entry <;> simp [fields]

theorem Entry.told?_of_mem {entry : Entry} {key text : String} (h : (key, text) ∈ entry.fields) :
    told? key entry.text = some text := by
  obtain ⟨hkeys, hown⟩ := entry.keys_fields
  have hsorted := (sortBy_perm keyPrecedes entry.fields).mem_iff.2 h
  have hmember : (key, text) ∈ members entry.severity entry.name entry.fields :=
    List.mem_cons_of_mem _ (List.mem_cons_of_mem _ hsorted)
  rw [Entry.text, told?_object]
  exact Assoc.get?_eq_some_of_mem (nodup_members entry.severity entry.name hkeys hown) hmember

/-- The lines that an outlet writes for some entries, on either stream. -/
def Outlet.lines (outlet : Outlet) (entries : List Entry) : List String :=
  (outlet.writeAll entries).map Prod.snd

theorem Outlet.lines_of_trace {outlet : Outlet} (h : outlet.least = .trace) (entries : List Entry) :
    outlet.lines entries = entries.map Entry.text := by
  have hadmits : ∀ severity, outlet.admits severity = true := by
    intro severity
    simp [admits, h, Severity.atLeast, Severity.rank]
  have hwrite : ∀ entry : Entry, outlet.write entry.severity entry.name entry.fields =
      some (outlet.stream entry.severity, entry.text) :=
    fun entry => if_pos (hadmits entry.severity)
  simp [lines, writeAll, hwrite]

theorem Event.name_injective {event other : Event} (h : event.name = other.name) :
    event = other := by
  revert h
  cases event <;> cases other <;> decide

/-- An entry has the name of an event exactly if it reports the event. -/
theorem Entry.name_eq_iff {entry : Entry} {event : Event} :
    entry.name = event.name ↔ entry.event? = some event := by
  unfold Entry.name
  rcases hevent : entry.event? with _ | other
  · cases event <;> decide
  · exact ⟨fun h => congrArg some (Event.name_injective h), fun h => by rw [Option.some.inj h]⟩

end Journal

end Cascade
