/-
# The grammar of written signatures

A written signature is a return token followed by any number of parameter tokens.  The
grammar is stated on the characters alone: which letters stand for a kind, what may stand
between `<` and `>`, and where a `?` and a `v` may stand.

**Reading accepts exactly this grammar and loses nothing** (`Signature.parse_grammar`).  What
is read at the front of a text is what is written there, and what is written is read back
(`TypeSpec.of_read?`, `TypeSpec.read?_encode`), with one look ahead: an `@` stands for an
object of any class only where no `<` follows.  No token starts with `<`, so this never
matters between tokens, and a text is made of tokens in one way only.
-/

import Interop.Signature.Parser
import Mathlib.Tactic.SplitIfs

namespace Interop

/-! ### Tokens -/

/-- The letters that stand for a kind. -/
def kindLetters : List Char :=
  ['B', 'c', 's', 'i', 'q', 'C', 'z', 'd', 'T', '^', '@']

/-- What stands for a kind: a letter, or an `@` with the name of a class. -/
inductive KindToken : List Char → Prop
  | letter {c : Char} (hc : c ∈ kindLetters) : KindToken [c]
  | constrained {name : List Char} (hne : name ≠ []) (hclose : '>' ∉ name) :
    KindToken ('@' :: '<' :: name ++ ['>'])

/-- A parameter token: at most one `?`, and a kind. -/
inductive ParamToken : List Char → Prop
  | plain {t : List Char} (ht : KindToken t) : ParamToken t
  | nullable {t : List Char} (ht : KindToken t) : ParamToken ('?' :: t)

/-- A return token: a parameter token, or a `v` by itself. -/
inductive ReturnToken : List Char → Prop
  | void : ReturnToken ['v']
  | value {t : List Char} (ht : ParamToken t) : ReturnToken t

/-- The text consists of a return token and parameter tokens. -/
structure Tokens (text first : List Char) (others : List (List Char)) : Prop where
  ret : ReturnToken first
  params : ∀ t ∈ others, ParamToken t
  text_eq : text = first ++ others.flatten

/-- A return type that can be written down. -/
def ReturnType.WellFormed : ReturnType → Prop
  | .void => True
  | .value spec => spec.kind.WellFormed

/-- A signature that can be written down. -/
structure Signature.WellFormed (s : Signature) : Prop where
  ret : s.ret.WellFormed
  params : ∀ spec ∈ s.params, spec.kind.WellFormed

/-! ### What is written as a token -/

namespace TypeKind

/-- The kinds that are written as one letter. -/
def plain : List TypeKind :=
  [.bool, .int .i8, .int .i16, .int .i32, .int .i64, .int .u8, .int .usize, .float, .text,
    .pointer, .object none]

/-- The kinds without a constraint are written as single letters. -/
theorem plain_encode : plain.map encode = kindLetters.map ([·]) := rfl

/-- A kind is written as one letter, or with the class it asks for. -/
theorem plain_or_constrained (kind : TypeKind) :
    kind ∈ plain ∨ ∃ cls, kind = .object (some cls) := by
  rcases kind with _ | width | _ | _ | (_ | cls) | _
  case int => cases width <;> exact Or.inl (by decide)
  case object.some => exact Or.inr ⟨cls, rfl⟩
  all_goals exact Or.inl (by decide)

/-- The kinds without a constraint are well formed. -/
theorem wellFormed_of_plain {kind : TypeKind} (h : kind ∈ plain) : kind.WellFormed := by
  rcases kind with _ | _ | _ | _ | (_ | cls) | _
  case object.some => exact absurd h (by simp [plain])
  all_goals trivial

/-- **What stands for a kind** is what a kind is written as. -/
theorem kindToken_iff {t : List Char} :
    KindToken t ↔ ∃ kind : TypeKind, kind.WellFormed ∧ kind.encode = t := by
  constructor
  · intro ht
    cases ht with
    | @letter c hc =>
      have hmem : [c] ∈ plain.map encode := by
        rw [plain_encode]
        exact List.mem_map_of_mem hc
      obtain ⟨kind, hkind, he⟩ := List.mem_map.1 hmem
      exact ⟨kind, wellFormed_of_plain hkind, he⟩
    | @constrained name hne hclose =>
      refine ⟨.object (some (String.ofList name)), ?_, ?_⟩
      · rw [WellFormed, String.toList_ofList]
        exact ⟨hne, hclose⟩
      · rw [encode, String.toList_ofList]
  · rintro ⟨kind, hkind, rfl⟩
    rcases plain_or_constrained kind with hplain | ⟨cls, rfl⟩
    · have hmem : kind.encode ∈ plain.map encode := List.mem_map_of_mem hplain
      rw [plain_encode] at hmem
      obtain ⟨c, hc, he⟩ := List.mem_map.1 hmem
      exact he ▸ .letter hc
    · exact .constrained hkind.1 hkind.2

end TypeKind

/-- The tokens of parameters are what well-formed types of parameters are written as. -/
theorem TypeSpec.paramToken_iff {t : List Char} :
    ParamToken t ↔ ∃ spec : TypeSpec, spec.kind.WellFormed ∧ spec.encode = t := by
  constructor
  · intro h
    cases h with
    | plain ht =>
      obtain ⟨kind, hkind, rfl⟩ := TypeKind.kindToken_iff.1 ht
      exact ⟨⟨kind, false⟩, hkind, rfl⟩
    | nullable ht =>
      obtain ⟨kind, hkind, rfl⟩ := TypeKind.kindToken_iff.1 ht
      exact ⟨⟨kind, true⟩, hkind, rfl⟩
  · rintro ⟨⟨kind, nullable⟩, hkind, rfl⟩
    have ht := TypeKind.kindToken_iff.2 ⟨kind, hkind, rfl⟩
    cases nullable with
    | false => exact .plain ht
    | true => exact .nullable ht

/-- The tokens of results are what well-formed types of results are written as. -/
theorem ReturnType.returnToken_iff {t : List Char} :
    ReturnToken t ↔ ∃ ret : ReturnType, ret.WellFormed ∧ ret.encode = t := by
  constructor
  · intro h
    cases h with
    | void => exact ⟨.void, trivial, rfl⟩
    | value ht =>
      obtain ⟨spec, hspec, rfl⟩ := TypeSpec.paramToken_iff.1 ht
      exact ⟨.value spec, hspec, rfl⟩
  · rintro ⟨ret, hret, rfl⟩
    cases ret with
    | void => exact .void
    | value spec => exact .value (TypeSpec.paramToken_iff.2 ⟨spec, hret, rfl⟩)

/-- Parameter tokens are what a list of types is written as. -/
theorem TypeSpec.paramTokens_iff {ts : List (List Char)} :
    (∀ t ∈ ts, ParamToken t) ↔
      ∃ specs : List TypeSpec, (∀ spec ∈ specs, spec.kind.WellFormed) ∧ specs.map encode = ts := by
  constructor
  · intro h
    induction ts with
    | nil => exact ⟨[], fun _ hs => absurd hs List.not_mem_nil, rfl⟩
    | cons t ts ih =>
      obtain ⟨spec, hspec, rfl⟩ := paramToken_iff.1 (h t List.mem_cons_self)
      obtain ⟨specs, hspecs, rfl⟩ := ih fun t ht => h t (List.mem_cons_of_mem _ ht)
      exact ⟨spec :: specs, List.forall_mem_cons.2 ⟨hspec, hspecs⟩, rfl⟩
  · rintro ⟨specs, hspecs, rfl⟩ t ht
    obtain ⟨spec, hspec, rfl⟩ := List.mem_map.1 ht
    exact paramToken_iff.2 ⟨spec, hspecs spec hspec, rfl⟩

/-- **A text of tokens** is what a signature is written as, token by token. -/
theorem Signature.tokens_iff {text first : List Char} {others : List (List Char)} :
    Tokens text first others ↔ ∃ s : Signature, s.WellFormed ∧ s.encodeChars = text ∧
      s.ret.encode = first ∧ s.params.map TypeSpec.encode = others := by
  constructor
  · rintro ⟨hret, hparams, rfl⟩
    obtain ⟨ret, hr, rfl⟩ := ReturnType.returnToken_iff.1 hret
    obtain ⟨specs, hspecs, rfl⟩ := TypeSpec.paramTokens_iff.1 hparams
    exact ⟨⟨ret, specs⟩, ⟨hr, hspecs⟩, by rw [encodeChars, List.flatMap_def], rfl, rfl⟩
  · rintro ⟨s, hs, rfl, rfl, rfl⟩
    exact ⟨ReturnType.returnToken_iff.2 ⟨s.ret, hs.ret, rfl⟩,
      TypeSpec.paramTokens_iff.2 ⟨s.params, hs.params, rfl⟩, by rw [encodeChars, List.flatMap_def]⟩

/-! ### Reading what is written -/

/-- A name is read up to the first `>`. -/
theorem of_readUntilClose {cs name rest : List Char} (h : readUntilClose cs = some (name, rest)) :
    '>' ∉ name ∧ cs = name ++ '>' :: rest := by
  induction cs generalizing name with
  | nil => simp [readUntilClose] at h
  | cons c cs ih =>
    rw [readUntilClose] at h
    split_ifs at h with hc
    · obtain ⟨rfl, rfl⟩ := Prod.mk.inj (Option.some.inj h)
      exact ⟨List.not_mem_nil, by rw [hc, List.nil_append]⟩
    · obtain ⟨⟨tail, after⟩, hp, he⟩ := Option.map_eq_some_iff.1 h
      obtain ⟨rfl, rfl⟩ := Prod.mk.inj he
      obtain ⟨htail, rfl⟩ := ih hp
      exact ⟨by simp [htail, Ne.symm hc], rfl⟩

/-- A name is read up to its closing bracket. -/
theorem readUntilClose_append {name rest : List Char} (h : '>' ∉ name) :
    readUntilClose (name ++ '>' :: rest) = some (name, rest) := by
  induction name with
  | nil => simp [readUntilClose]
  | cons c name ih =>
    obtain ⟨hc, hname⟩ : '>' ≠ c ∧ '>' ∉ name := by simpa using h
    rw [List.cons_append, readUntilClose, if_neg (Ne.symm hc), ih hname, Option.map_some]

/-- The text that follows does not continue the kind: after an `@` by itself no `<` may
stand. -/
def TypeKind.Ends (kind : TypeKind) (rest : List Char) : Prop :=
  kind = .object none → rest.head? ≠ some '<'

/-- The class after an `@` is written there. -/
theorem of_readConstraint? {cs rest : List Char} {constraint : Option String}
    (h : readConstraint? cs = some (constraint, rest)) :
    (TypeKind.object constraint).WellFormed ∧
      '@' :: cs = (TypeKind.object constraint).encode ++ rest := by
  cases cs with
  | nil =>
    obtain ⟨rfl, rfl⟩ := Prod.mk.inj (Option.some.inj h)
    exact ⟨trivial, rfl⟩
  | cons c cs =>
    rw [readConstraint?] at h
    split_ifs at h with hc
    · split at h
      · exact absurd h (by simp)
      · rename_i name after hread
        obtain ⟨hclose, rfl⟩ := of_readUntilClose hread
        split_ifs at h with hempty
        obtain ⟨rfl, rfl⟩ := Prod.mk.inj (Option.some.inj h)
        rw [TypeKind.WellFormed, TypeKind.encode, String.toList_ofList]
        exact ⟨⟨by simpa using hempty, hclose⟩, by simp [hc]⟩
    · obtain ⟨rfl, rfl⟩ := Prod.mk.inj (Option.some.inj h)
      exact ⟨trivial, rfl⟩

/-- Without an opening bracket there is no constraint. -/
theorem readConstraint?_any {rest : List Char} (h : rest.head? ≠ some '<') :
    readConstraint? rest = some (none, rest) := by
  cases rest with
  | nil => rfl
  | cons c rest =>
    have hc : c ≠ '<' := fun hc => h (by rw [List.head?_cons, hc])
    rw [readConstraint?, if_neg hc]

/-- A constraint is read between its brackets. -/
theorem readConstraint?_class {cls : String} {rest : List Char}
    (h : (TypeKind.object (some cls)).WellFormed) :
    readConstraint? ('<' :: cls.toList ++ ['>'] ++ rest) = some (some cls, rest) := by
  have hread : readUntilClose (cls.toList ++ '>' :: rest) = some (cls.toList, rest) :=
    readUntilClose_append h.2
  have hne : cls.toList.isEmpty = false := by simpa using h.1
  rw [List.append_assoc, List.cons_append, List.singleton_append, readConstraint?, if_pos rfl,
    hread]
  simp only [hne, String.ofList_toList]
  rfl

namespace TypeKind

variable {cs rest : List Char} {kind : TypeKind}

/-- A letter is read as a kind that is written with it. -/
theorem encode_of_ofLetter? {c : Char} (h : ofLetter? c = some kind) :
    kind ∈ plain ∧ kind.encode = [c] := by
  unfold ofLetter? at h
  split at h
  case h_11 => exact absurd h (by simp)
  all_goals
    obtain rfl := Option.some.inj h
    exact ⟨by decide, rfl⟩

/-- What is read as a kind is written there. -/
theorem of_read? (h : read? cs = some (kind, rest)) :
    kind.WellFormed ∧ cs = kind.encode ++ rest := by
  cases cs with
  | nil => exact absurd h (by simp [read?])
  | cons c cs =>
    rw [read?] at h
    split_ifs at h with hc
    · obtain ⟨⟨constraint, after⟩, hp, he⟩ := Option.map_eq_some_iff.1 h
      obtain ⟨rfl, rfl⟩ := Prod.mk.inj he
      exact hc ▸ of_readConstraint? hp
    · obtain ⟨k, hk, he⟩ := Option.map_eq_some_iff.1 h
      obtain ⟨rfl, rfl⟩ := Prod.mk.inj he
      obtain ⟨hplain, hencode⟩ := encode_of_ofLetter? hk
      exact ⟨wellFormed_of_plain hplain, by rw [hencode]; rfl⟩

/-- What is written for a kind is read back where the text goes on with something else. -/
theorem read?_encode (h : kind.WellFormed) (hends : kind.Ends rest) :
    read? (kind.encode ++ rest) = some (kind, rest) := by
  rcases kind with _ | width | _ | _ | (_ | cls) | _
  case int => cases width <;> rfl
  case object.none =>
    show (readConstraint? rest).map _ = _
    rw [readConstraint?_any (hends rfl)]
    rfl
  case object.some =>
    show (readConstraint? ('<' :: cls.toList ++ ['>'] ++ rest)).map _ = _
    rw [readConstraint?_class h]
    rfl
  all_goals rfl

/-- No kind is written with a `?`, a `v` or a `<` in front. -/
theorem head_encode (kind : TypeKind) :
    ∃ c tail, kind.encode = c :: tail ∧ c ≠ '?' ∧ c ≠ 'v' ∧ c ≠ '<' := by
  rcases kind with _ | width | _ | _ | (_ | cls) | _
  case int => cases width <;> exact ⟨_, _, rfl, by decide, by decide, by decide⟩
  all_goals exact ⟨_, _, rfl, by decide, by decide, by decide⟩

end TypeKind

namespace TypeSpec

variable {cs rest : List Char} {spec : TypeSpec}

/-- What is read as the type of a parameter is written there. -/
theorem of_read? (h : read? cs = some (spec, rest)) :
    spec.kind.WellFormed ∧ cs = spec.encode ++ rest := by
  cases cs with
  | nil => exact absurd h (by simp [read?])
  | cons c cs =>
    rw [read?] at h
    split_ifs at h with hc
    · obtain ⟨⟨kind, after⟩, hp, he⟩ := Option.map_eq_some_iff.1 h
      obtain ⟨rfl, rfl⟩ := Prod.mk.inj he
      obtain ⟨hkind, rfl⟩ := TypeKind.of_read? hp
      exact ⟨hkind, by rw [hc]; rfl⟩
    · obtain ⟨⟨kind, after⟩, hp, he⟩ := Option.map_eq_some_iff.1 h
      obtain ⟨rfl, rfl⟩ := Prod.mk.inj he
      exact TypeKind.of_read? hp

/-- The type of a parameter is read where it is written. -/
theorem read?_encode (h : spec.kind.WellFormed) (hends : spec.kind.Ends rest) :
    read? (spec.encode ++ rest) = some (spec, rest) := by
  obtain ⟨kind, nullable⟩ := spec
  have hkind : TypeKind.read? (kind.encode ++ rest) = some (kind, rest) :=
    TypeKind.read?_encode h hends
  cases nullable with
  | true =>
    show (TypeKind.read? (kind.encode ++ rest)).map _ = _
    rw [hkind, Option.map_some]
  | false =>
    obtain ⟨c, tail, he, hc, -⟩ := kind.head_encode
    show read? (kind.encode ++ rest) = _
    rw [he, List.cons_append] at hkind ⊢
    rw [read?, if_neg hc, hkind, Option.map_some]

/-- No type is written with a `v` or a `<` in front. -/
theorem head_encode (spec : TypeSpec) : ∃ c tail, spec.encode = c :: tail ∧ c ≠ 'v' ∧ c ≠ '<' := by
  obtain ⟨kind, nullable⟩ := spec
  cases nullable with
  | true => exact ⟨_, _, rfl, by decide, by decide⟩
  | false =>
    obtain ⟨c, tail, he, -, hv, hopen⟩ := kind.head_encode
    exact ⟨c, tail, he, hv, hopen⟩

/-- A type that is written down is not the empty text. -/
theorem encode_ne_nil (spec : TypeSpec) : spec.encode ≠ [] := by
  obtain ⟨c, tail, he, -⟩ := spec.head_encode
  rw [he]
  exact List.cons_ne_nil c tail

end TypeSpec

/-- Parameter tokens continue no token. -/
theorem TypeKind.ends_flatMap (kind : TypeKind) (specs : List TypeSpec) :
    kind.Ends (specs.flatMap TypeSpec.encode) := by
  intro _
  cases specs with
  | nil => simp
  | cons spec specs =>
    obtain ⟨c, tail, he, -, hopen⟩ := spec.head_encode
    rw [List.flatMap_cons, he, List.cons_append, List.head?_cons]
    exact fun hc => hopen (Option.some.inj hc)

/-- **The tokens of the parameters** are read exactly where they are written. -/
theorem readParams?_eq_some_iff {cs : List Char} {specs : List TypeSpec} :
    readParams? cs = some specs ↔
      (∀ spec ∈ specs, spec.kind.WellFormed) ∧ specs.flatMap TypeSpec.encode = cs := by
  constructor
  · intro h
    induction specs generalizing cs with
    | nil =>
      rw [readParams?] at h
      split_ifs at h with hempty
      · exact ⟨fun _ hs => absurd hs List.not_mem_nil, (List.isEmpty_iff.1 hempty).symm⟩
      · split at h
        · exact absurd h (by simp)
        · exact absurd h (by simp [Option.map_eq_some_iff])
    | cons spec specs ih =>
      rw [readParams?] at h
      split_ifs at h with hempty
      · exact absurd h (by simp)
      · split at h
        · exact absurd h (by simp)
        · rename_i first rest hread
          -- the first token ends where it has to, so the rest is read by itself
          obtain ⟨others, hothers, he⟩ := Option.map_eq_some_iff.1 h
          obtain ⟨rfl, rfl⟩ := List.cons.inj he
          obtain ⟨hspec, rfl⟩ := TypeSpec.of_read? hread
          obtain ⟨hspecs, rfl⟩ := ih hothers
          exact ⟨List.forall_mem_cons.2 ⟨hspec, hspecs⟩, List.flatMap_cons⟩
  · rintro ⟨h, rfl⟩
    induction specs with
    | nil =>
      rw [readParams?]
      rfl
    | cons spec specs ih =>
      obtain ⟨hspec, hspecs⟩ := List.forall_mem_cons.1 h
      have hread : TypeSpec.read? (spec.encode ++ specs.flatMap TypeSpec.encode) =
          some (spec, specs.flatMap TypeSpec.encode) :=
        TypeSpec.read?_encode hspec (spec.kind.ends_flatMap specs)
      rw [readParams?, List.flatMap_cons, if_neg (by simp [spec.encode_ne_nil])]
      split
      · rename_i hnone
        exact absurd (hnone.symm.trans hread) (by simp)
      · rename_i first rest hsome
        obtain ⟨rfl, rfl⟩ := Prod.mk.inj (Option.some.inj (hsome.symm.trans hread))
        rw [ih hspecs, Option.map_some]

namespace ReturnType

variable {cs rest : List Char} {ret : ReturnType}

/-- What is read as the type of a result is written there. -/
theorem of_read? (h : read? cs = some (ret, rest)) : ret.WellFormed ∧ cs = ret.encode ++ rest := by
  cases cs with
  | nil => exact absurd h (by simp [read?])
  | cons c cs =>
    rw [read?] at h
    split_ifs at h with hc
    · obtain ⟨rfl, rfl⟩ := Prod.mk.inj (Option.some.inj h)
      exact ⟨trivial, by rw [hc]; rfl⟩
    · obtain ⟨⟨spec, after⟩, hp, he⟩ := Option.map_eq_some_iff.1 h
      obtain ⟨rfl, rfl⟩ := Prod.mk.inj he
      exact TypeSpec.of_read? hp

/-- The type of a result is read where it is written. -/
theorem read?_encode (h : ret.WellFormed) (specs : List TypeSpec) :
    read? (ret.encode ++ specs.flatMap TypeSpec.encode) =
      some (ret, specs.flatMap TypeSpec.encode) := by
  cases ret with
  | void => rfl
  | value spec =>
    have hspec := TypeSpec.read?_encode h (spec.kind.ends_flatMap specs)
    obtain ⟨c, tail, he, hc, -⟩ := spec.head_encode
    show read? (spec.encode ++ _) = _
    rw [he, List.cons_append] at hspec ⊢
    rw [read?, if_neg hc, hspec, Option.map_some]

end ReturnType

namespace Signature

/-- **Reading and writing are inverse** to each other on signatures that can be written down. -/
theorem ofChars?_eq_some_iff {cs : List Char} {s : Signature} :
    ofChars? cs = some s ↔ s.WellFormed ∧ s.encodeChars = cs := by
  constructor
  · intro h
    rw [ofChars?] at h
    split at h
    · exact absurd h (by simp)
    · rename_i ret rest hread
      obtain ⟨params, hparams, rfl⟩ := Option.map_eq_some_iff.1 h
      obtain ⟨hret, rfl⟩ := ReturnType.of_read? hread
      obtain ⟨hspecs, rfl⟩ := readParams?_eq_some_iff.1 hparams
      exact ⟨⟨hret, hspecs⟩, rfl⟩
  · rintro ⟨hs, rfl⟩
    have hparams : readParams? (s.params.flatMap TypeSpec.encode) = some s.params :=
      readParams?_eq_some_iff.2 ⟨hs.params, rfl⟩
    rw [ofChars?, encodeChars, ReturnType.read?_encode hs.ret s.params]
    simp only [hparams, Option.map_some]

/-- A signature is written as a text when its characters are those of the text. -/
theorem encode_eq_iff {text : String} {s : Signature} :
    s.encode = text ↔ s.encodeChars = text.toList := by
  rw [encode, ← String.toList_inj, String.toList_ofList]

/-- A text is read as the well-formed signature that is written so. -/
theorem parse_eq_ok_iff {text : String} {s : Signature} :
    parse text = .ok s ↔ s.WellFormed ∧ s.encode = text := by
  rw [encode_eq_iff, ← ofChars?_eq_some_iff, parse]
  cases ofChars? text.toList <;> simp

/-- The name of a class may hold letters of kinds, a `?`, an `@` and a `<`. -/
example : parse "v?@<A?@<q>^" =
    .ok ⟨.void, [⟨.object (some "A?@<q"), true⟩, ⟨.pointer, false⟩]⟩ := by
  refine parse_eq_ok_iff.2 ⟨⟨trivial, ?_⟩, by decide⟩
  simp [TypeKind.WellFormed]

/-- A text that is not read as a signature is reported whole. -/
theorem parse_eq_error {text : String} (h : ∀ s, parse text ≠ .ok s) :
    parse text = .error (.invalidEncoding text) := by
  rw [parse] at h ⊢
  cases hs : ofChars? text.toList with
  | none => rfl
  | some s => exact absurd (by rw [hs]) (h s)

/-- **Reading signatures.** A text is read exactly when it consists of a return token and
parameter tokens, which it does in one way only.  What is read is the signature that is
written as this text, token by token, and a signature that can be written down is read back
from what it is written as.  Every other text is reported whole. -/
theorem parse_grammar (text : String) :
    ((∃ s, parse text = .ok s) ↔ ∃ first others, Tokens text.toList first others) ∧
    (∀ first others first' others', Tokens text.toList first others →
      Tokens text.toList first' others' → first' = first ∧ others' = others) ∧
    (∀ s, parse text = .ok s → s.encode = text ∧
      Tokens text.toList s.ret.encode (s.params.map TypeSpec.encode)) ∧
    (∀ s : Signature, s.WellFormed → s.encode = text → parse text = .ok s) ∧
    ((¬ ∃ first others, Tokens text.toList first others) →
      parse text = .error (.invalidEncoding text)) := by
  have hread : ∀ s, parse text = .ok s →
      Tokens text.toList s.ret.encode (s.params.map TypeSpec.encode) := fun s hs => by
    obtain ⟨hs, htext⟩ := parse_eq_ok_iff.1 hs
    exact tokens_iff.2 ⟨s, hs, encode_eq_iff.1 htext, rfl, rfl⟩
  have hwritten : ∀ first others, Tokens text.toList first others → ∃ s, parse text = .ok s ∧
      s.ret.encode = first ∧ s.params.map TypeSpec.encode = others := fun first others h => by
    obtain ⟨s, hs, htext, hret, hparams⟩ := tokens_iff.1 h
    exact ⟨s, parse_eq_ok_iff.2 ⟨hs, encode_eq_iff.2 htext⟩, hret, hparams⟩
  have hiff : (∃ s, parse text = .ok s) ↔ ∃ first others, Tokens text.toList first others := by
    constructor
    · rintro ⟨s, hs⟩
      exact ⟨_, _, hread s hs⟩
    · rintro ⟨first, others, h⟩
      obtain ⟨s, hs, -⟩ := hwritten first others h
      exact ⟨s, hs⟩
  refine ⟨hiff, ?_, fun s hs => ⟨(parse_eq_ok_iff.1 hs).2, hread s hs⟩,
    fun s hs he => parse_eq_ok_iff.2 ⟨hs, he⟩, fun hnot => ?_⟩
  · -- both ways to cut the text are those of the one signature that is read
    intro first others first' others' h h'
    obtain ⟨s, hs, rfl, rfl⟩ := hwritten first others h
    obtain ⟨s', hs', rfl, rfl⟩ := hwritten first' others' h'
    obtain rfl := Except.ok.inj (hs.symm.trans hs')
    exact ⟨rfl, rfl⟩
  · exact parse_eq_error fun s hs => hnot (hiff.1 ⟨s, hs⟩)

end Signature

end Interop
