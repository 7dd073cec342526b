import DataAccess.Proofs.Computation
import DataAccess.Proofs.Template.Chains

/-!
# Assignments to strings

An update assigns to strings that a caller gives. Each is written behind an at sign and once more
behind a colon. What is looked up is the identifier that a string begins with. Whatever stands
behind that, or a string that begins with none, is text and stays as it is.
-/

set_option autoImplicit false

namespace DataAccess

open Text

theorem Text.joined_cons (separator s : String) {parts : List String} (h : parts ≠ []) :
    joined separator (s :: parts) = s ++ separator ++ joined separator parts := by
  cases parts with
  | nil => exact absurd rfl h
  | cons => rfl

namespace PartialUpdate

def front? (p : String) : Option String :=
  if Token.startsName p.toList then some (String.ofList (Token.name p.toList)) else none

def tail (p : String) : String := String.ofList (Token.behindName p.toList)

def fronts (ps : List String) : List String := ps.filterMap front?

def assignment (p : String) : String := "@" ++ p ++ "=:" ++ p

theorem front?_of_isName {p : String} (h : isName p.toList = true) :
    front? p = some p ∧ tail p = "" := by
  have hend : EndsName [] := rfl
  obtain ⟨hstarts, hname, hbehind⟩ := Token.name_append h hend
  rw [List.append_nil] at hstarts hname hbehind
  rw [front?, tail, if_pos hstarts, hname, hbehind, String.ofList_toList]
  exact ⟨rfl, rfl⟩

theorem fronts_of_isName {ps : List String} (h : ∀ p ∈ ps, isName p.toList = true) :
    fronts ps = ps := by
  induction ps with
  | nil => rfl
  | cons p ps ih =>
    rw [List.forall_mem_cons] at h
    rw [fronts, List.filterMap_cons_some (front?_of_isName h.1).1]
    exact congrArg (p :: ·) (ih h.2)

theorem eq_append_of_front? {p name : String} (h : front? p = some name) :
    p = name ++ tail p ∧ isName name.toList = true ∧ EndsName (tail p).toList := by
  rw [front?] at h
  split at h
  · next hstarts =>
    cases h
    obtain ⟨hname, hend, hp⟩ := Token.exists_name hstarts
    rw [tail, ← String.ofList_append, ← hp, String.ofList_toList, String.toList_ofList,
      String.toList_ofList]
    exact ⟨rfl, hname, hend⟩
  · cases h

section
variable (m : Mapping)

def assignLinks (p : String) : Except Fault (List Link) :=
  match front? p with
  | some name => do
    let c ← m.column name
    return .text c.sqlName :: (Link.ofChars (tail p ++ "=").toList ++
      .param name :: Link.ofChars (tail p).toList)
  | none => .ok (Link.ofChars (assignment p).toList)

def setLinks : List String → Except Fault (List Link)
  | [] => .ok []
  | [p] => assignLinks m p
  | p :: rest => do return (← assignLinks m p) ++ (Link.ofChars ", ".toList ++ (← setLinks rest))

variable {m} {registry : Registry}

theorem setLinks_cons (p next : String) (ps : List String) :
    setLinks m (p :: next :: ps) = (do
      return (← assignLinks m p) ++ (Link.ofChars ", ".toList ++ (← setLinks m (next :: ps)))) :=
  rfl

theorem stops_of_isPlain {cs : List Char} (h : cs.all isPlain = true) (hend : EndsName cs) :
    Stops cs := by
  cases cs with
  | nil => rfl
  | cons c cs =>
    have hc : (c == ':') = false := by
      rw [beq_eq_false_iff_ne]
      rintro rfl
      cases h
    exact Bool.or_eq_false_iff.mpr ⟨hend, hc⟩

theorem becomes_named {p name : String} (h : p.toList.all isPlain = true)
    (hfront : front? p = some name) : Becomes registry m (assignment p) (assignLinks m p) := by
  obtain ⟨hp, hname, hend⟩ := eq_append_of_front? hfront
  have htail : (tail p).toList.all isPlain = true := by
    rw [hp, String.toList_append, List.all_append, Bool.and_eq_true] at h
    exact h.2
  have hstops := stops_of_isPlain htail hend
  have hequals : (tail p ++ "=").toList.all isPlain = true := by
    rw [String.toList_append, List.all_append, htail]
    decide
  have hstops' : Stops (tail p ++ "=" ++ (":" ++ name ++ tail p)).toList := by
    rw [String.toList_append, String.toList_append, List.append_assoc]
    exact stops_append hstops rfl
  have hwhole : Becomes registry m _ _ := becomes_append (becomes_column hname)
    (becomes_behind (tail p ++ "=") hequals
      (becomes_append (becomes_param hname) (becomes_plain htail) hstops)) hstops'
  have htext : assignment p = "@" ++ name ++ (tail p ++ "=" ++ (":" ++ name ++ tail p)) := by
    generalize tail p = behind at hp ⊢
    rw [← String.toList_inj, assignment, hp]
    simp
  rw [htext, assignLinks, hfront]
  dsimp only
  cases hc : m.column name with
  | error e =>
    rw [hc] at hwhole
    exact hwhole
  | ok c =>
    rw [hc] at hwhole
    exact hwhole

theorem becomes_unnamed {p : String} (h : p.toList.all isPlain = true) (hfront : front? p = none) :
    Becomes registry m (assignment p) (assignLinks m p) := by
  have hstarts : Token.startsName p.toList = false := by
    rw [front?] at hfront
    split at hfront
    · cases hfront
    · next hno => exact Bool.eq_false_iff.mpr hno
  -- the sign is followed by the string, or by what follows it if it is empty
  have hbegins {c : Char} (hc : c = ':' ∨ c = '@') {rest : List Char}
      (hrest : rest.head?.any (fun d => isNameStart d || d == c) = false) :
      Token.Begins (c :: (p.toList ++ rest)) (.text [c]) (p.toList ++ rest) := by
    apply Token.begins_unnamed hc
    cases hp : p.toList with
    | nil => exact hrest
    | cons d cs =>
      rw [hp] at h hstarts
      rw [List.all_cons, Bool.and_eq_true] at h
      refine Bool.or_eq_false_iff.mpr ⟨hstarts, ?_⟩
      rw [beq_eq_false_iff_ne]
      rintro rfl
      rcases hc with rfl | rfl <;> cases h.1
  intro source depth rest hrest
  have hcolon : rest.head?.any (fun d => isNameStart d || d == ':') = false := by
    cases rest with
    | nil => rfl
    | cons d rest =>
      obtain ⟨hpart, hc⟩ := Bool.or_eq_false_iff.mp hrest
      refine Bool.or_eq_false_iff.mpr ⟨?_, hc⟩
      rw [← Bool.not_eq_true] at hpart ⊢
      exact hpart ∘ isNamePart_of_isNameStart
  have hplain : (p.toList ++ ['=']).all isPlain = true := by
    rw [List.all_append, h]
    rfl
  have htext : (assignment p).toList ++ rest =
      '@' :: (p.toList ++ ('=' :: ':' :: (p.toList ++ rest))) := by simp [assignment]
  have hequals : p.toList ++ ('=' :: ':' :: (p.toList ++ rest)) =
      p.toList ++ ['='] ++ ':' :: (p.toList ++ rest) := by simp
  have hchars : Link.ofChars (assignment p).toList = .text (String.ofList ['@']) ::
      (Link.ofChars (p.toList ++ ['=']) ++
        .text (String.ofList [':']) :: Link.ofChars p.toList) := by
    simp [assignment, Link.ofChars]
  rw [htext, Token.scan_of_begins (hbegins (.inr rfl) rfl), hequals, Block.build,
    build_isPlain hplain, Token.scan_of_begins (hbegins (.inl rfl) hcolon), Block.build,
    build_isPlain h, assignLinks, hfront, hchars]
  cases Block.build registry m source depth (Token.scan rest) with
  | error e => rfl
  | ok b =>
    have happend := Block.chain_append (Link.ofChars (p.toList ++ ['=']))
      (.text (String.ofList [':']) :: Link.ofChars p.toList) b.1
    exact congrArg (fun b' => Except.ok (Block.text _ b', b.2)) happend.symm

theorem becomes_assignment {p : String} (h : p.toList.all isPlain = true) :
    Becomes registry m (assignment p) (assignLinks m p) := by
  cases hfront : front? p with
  | some name => exact becomes_named h hfront
  | none => exact becomes_unnamed h hfront

theorem becomes_set {ps : List String} (h : ∀ p ∈ ps, p.toList.all isPlain = true) :
    Becomes registry m (joined ", " (ps.map assignment)) (setLinks m ps) := by
  induction ps with
  | nil => exact becomes_empty
  | cons p ps ih =>
    rw [List.forall_mem_cons] at h
    have hfirst : Becomes registry m (assignment p) (assignLinks m p) := becomes_assignment h.1
    cases ps with
    | nil => exact hfirst
    | cons next ps =>
      have hwhole := becomes_append hfirst (becomes_behind ", " (by decide) (ih h.2))
        (stops_words (by decide) _)
      have htext : joined ", " ((p :: next :: ps).map assignment) =
          assignment p ++ (", " ++ joined ", " ((next :: ps).map assignment)) :=
        String.append_assoc
      have hlinks : setLinks m (p :: next :: ps) = (do
          return (← assignLinks m p) ++
            (← (setLinks m (next :: ps)).map (Link.ofChars ", ".toList ++ ·))) := by
        rw [setLinks_cons]
        cases assignLinks m p with
        | error e => rfl
        | ok ls => cases setLinks m (next :: ps) <;> rfl
      rw [htext, hlinks]
      exact hwhole

def unknown? (m : Mapping) (names : List String) : Option Fault :=
  (names.find? fun name => (m.column? name).isNone).map (.unknownProperty m.business)

theorem unknown?_append (names others : List String) :
    unknown? m (names ++ others) = (unknown? m names).or (unknown? m others) := by
  rw [unknown?, List.find?_append, Option.map_or]
  rfl

theorem unknown?_eq_none {names : List String} :
    unknown? m names = none ↔ ∀ name ∈ names, ∃ c, m.column? name = some c := by
  simp [unknown?, ← ne_eq, Option.ne_none_iff_exists']

theorem fronts_cons (p : String) (ps : List String) :
    fronts (p :: ps) = (front? p).toList ++ fronts ps := by
  rw [fronts, List.filterMap_cons]
  cases front? p <;> rfl

def assignments (m : Mapping) : Nat → List String → List String
  | _, [] => []
  | used, p :: rest =>
    match (front? p).bind m.column? with
    | some c =>
      (c.sqlName ++ tail p ++ "=" ++ m.flavor.placeholder (used + 1) ++ tail p) ::
        assignments m (used + 1) rest
    | none => assignment p :: assignments m used rest

theorem assignments_ne_nil (used : Nat) (p : String) (rest : List String) :
    assignments m used (p :: rest) ≠ [] := by
  rw [assignments]
  split <;> exact List.cons_ne_nil _ _

theorem assignLinks_eq_error {p : String} {e : Fault} :
    assignLinks m p = .error e ↔ unknown? m (front? p).toList = some e := by
  rw [assignLinks]
  cases front? p with
  | none => simp [unknown?]
  | some name =>
    dsimp only
    rw [Mapping.column, Option.toList_some, unknown?, List.find?_singleton]
    cases m.column? name with
    | none => simp [bind, Except.bind]
    | some c => simp [bind, Except.bind, pure, Except.pure]

theorem assignLinks_eq_ok {p : String} {ls : List Link} (h : assignLinks m p = .ok ls) :
    Link.names ls = (front? p).toList ∧ ∀ used rest, assignments m used (p :: rest) =
      Link.sql m.flavor used ls :: assignments m (used + (Link.names ls).length) rest := by
  rw [assignLinks] at h
  cases hfront : front? p with
  | none =>
    rw [hfront] at h
    cases h
    refine ⟨Link.names_ofChars _, fun used rest => ?_⟩
    rw [Link.names_ofChars, Link.sql_ofChars, String.ofList_toList, assignments, hfront]
    rfl
  | some name =>
    rw [hfront] at h
    obtain ⟨c, hc, hdone⟩ := bind_eq_ok.mp h
    cases hdone
    have hnames : Link.names (.text c.sqlName :: (Link.ofChars (tail p ++ "=").toList ++
        .param name :: Link.ofChars (tail p).toList)) = [name] := by simp [Link.names]
    refine ⟨hnames, fun used rest => ?_⟩
    rw [hnames, assignments, hfront, Option.bind_some, Mapping.column?_of_column hc]
    simp [Link.sql, Link.sql_append, String.append_assoc]

theorem setLinks_eq_error {ps : List String} {e : Fault} :
    setLinks m ps = .error e ↔ unknown? m (fronts ps) = some e := by
  induction ps with
  | nil => simp [setLinks, fronts, unknown?]
  | cons p ps ih =>
    rw [fronts_cons, unknown?_append]
    cases ps with
    | nil =>
      rw [setLinks, assignLinks_eq_error, fronts, List.filterMap_nil, unknown?, unknown?]
      simp
    | cons next ps =>
      rw [setLinks_cons]
      cases hp : assignLinks m p with
      | error e' =>
        rw [assignLinks_eq_error.mp hp]
        simp [bind, Except.bind]
      | ok ls =>
        have hnone : unknown? m (front? p).toList = none := by
          rw [Option.eq_none_iff_forall_ne_some]
          intro e' he'
          rw [assignLinks_eq_error.mpr he'] at hp
          cases hp
        rw [hnone, Option.none_or, ← ih]
        exact bind_eq_error (fun _ _ => ⟨_, rfl⟩) e

theorem setLinks_eq_ok {ps : List String} {ls : List Link} (h : setLinks m ps = .ok ls) :
    Link.names ls = fronts ps ∧
      ∀ used, Link.sql m.flavor used ls = joined ", " (assignments m used ps) := by
  induction ps generalizing ls with
  | nil =>
    cases h
    exact ⟨rfl, fun _ => rfl⟩
  | cons p ps ih =>
    rw [fronts_cons]
    cases ps with
    | nil =>
      obtain ⟨hnames, hsql⟩ := assignLinks_eq_ok h
      refine ⟨by rw [hnames]; simp [fronts], fun used => ?_⟩
      rw [hsql]
      rfl
    | cons next ps =>
      rw [setLinks_cons] at h
      obtain ⟨first, hfirst, h⟩ := bind_eq_ok.mp h
      obtain ⟨rest, hrest, h⟩ := bind_eq_ok.mp h
      cases h
      obtain ⟨hnames, hsql⟩ := assignLinks_eq_ok hfirst
      obtain ⟨hnames', hsql'⟩ := ih hrest
      refine ⟨by simp [hnames, hnames'], fun used => ?_⟩
      rw [hsql, joined_cons _ _ (assignments_ne_nil _ _ _), Link.sql_append, Link.sql_append,
        Link.sql_ofChars, Link.names_ofChars, hsql', String.ofList_toList, List.length_nil,
        Nat.add_zero, String.append_assoc]

end

end PartialUpdate

end DataAccess
