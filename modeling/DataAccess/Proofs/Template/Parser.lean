import DataAccess.Proofs.Template.Scanner

/-!
# Parsing a template by its bytes

A parser goes through a text from token to token, with the text that is not yet stored and a stack
of frames, one for each directive that is open. It stops where a cut is refused or a frame is
missing. What its state comes to is told by the tokens that are left, and a step does not change
that; so the parser always ends, with the block of the text or its first fault.
-/

set_option autoImplicit false

namespace DataAccess

open Text

namespace Block

def append : Block → Block → Block
  | done, b => b
  | text s next, b => text s (next.append b)
  | table m next, b => table m (next.append b)
  | param name next, b => param name (next.append b)
  | guarded guard body next, b => guarded guard body (next.append b)

def leading (s : String) (b : Block) : Block := if s = "" then b else text s b

def merged (pending : String) : Block → Block
  | done => leading pending done
  | text s next => next.merged (pending ++ s)
  | table m next => leading pending (table m (next.merged ""))
  | param name next => leading pending (param name (next.merged ""))
  | guarded guard body next => leading pending (guarded guard (body.merged "") (next.merged ""))

theorem append_assoc (a b c : Block) : (a.append b).append c = a.append (b.append c) := by
  induction a with
  | done => rfl
  | text s next ih => exact congrArg (text s) ih
  | table m next ih => exact congrArg (table m) ih
  | param name next ih => exact congrArg (param name) ih
  | guarded guard body next _ ih => exact congrArg (guarded guard body) ih

theorem append_done (b : Block) : b.append done = b := by
  induction b with
  | done => rfl
  | text s next ih => exact congrArg (text s) ih
  | table m next ih => exact congrArg (table m) ih
  | param name next ih => exact congrArg (param name) ih
  | guarded guard body next _ ih => exact congrArg (guarded guard body) ih

theorem prepare_leading {flavor : Flavor} {values : Dict Value} {condition : Option TableCondition}
    (s : String) (b : Block) (out : Prepared) :
    (leading s b).prepare flavor values condition out =
      b.prepare flavor values condition { out with sql := out.sql ++ s } := by
  unfold leading
  split
  · next h => rw [h, String.append_empty]
  · rfl

/-- A block is prepared to the same text however its texts are divided. -/
theorem prepare_merged {flavor : Flavor} {values : Dict Value} {condition : Option TableCondition}
    (b : Block) (pending : String) (out : Prepared) :
    (b.merged pending).prepare flavor values condition out =
      b.prepare flavor values condition { out with sql := out.sql ++ pending } := by
  induction b generalizing pending out with
  | done => exact prepare_leading pending done out
  | text s next ih => rw [merged, ih, prepare, String.append_assoc]
  | table m next ih =>
    rw [merged, prepare_leading, prepare, prepare]
    simp only [ih, String.append_empty]
  | param name next ih =>
    rw [merged, prepare_leading, prepare, prepare]
    simp only [ih, String.append_empty]
  | guarded guard body next ihbody ih =>
    rw [merged, prepare_leading, prepare, prepare]
    simp only [ihbody, ih, String.append_empty]

end Block

structure Frame where
  guard? : Option Guard
  body : Block

structure Parser where
  pos : Nat
  text : String
  frames : List Frame

namespace Guard

def checked? (cs : List Char) (negated : Bool) : Option (String × Bool) :=
  let var := bareVar cs
  if var.isEmpty || !var.all isNamePart then none else some (String.ofList var, negated)

def readBytes (argument : List Char) : Option (Option (String × Bool)) := do
  let s := String.ofList (trim argument)
  if s.toList.head? = some '!' then
    let behind ← Scanner.cut s 1 s.utf8ByteSize
    return checked? (trimStart behind) true
  else return checked? s.toList false

def ofVariable (source : String) (argument : List Char) :
    Directive → Option (String × Bool) → Except Fault Guard
  | _, none =>
    .error (.unbalancedDirective
      ("invalid directive variable [" ++ String.ofList argument ++ "]"))
  | .ifTrue, some (var, negated) => .ok (.ifTrue var negated)
  | .notEmpty, some (var, false) => .ok (.notEmpty var)
  | .notEmpty, some (_, true) =>
    .error (.unbalancedDirective ("#notEmpty does not accept negation: " ++ source))

theorem readVar?_negated {argument behind : List Char} (h : trim argument = '!' :: behind) :
    readVar? argument = checked? (trimStart behind) true := by
  rw [readVar?, h]
  rfl

theorem readVar?_plain {argument : List Char} (h : (trim argument).head? ≠ some '!') :
    readVar? argument = checked? (trim argument) false := by
  have hhead : ((trim argument).head? == some '!') = false := beq_eq_false_iff_ne.mpr h
  rw [readVar?, hhead]
  rfl

theorem readBytes_eq (argument : List Char) : readBytes argument = some (readVar? argument) := by
  rw [readBytes, String.toList_ofList]
  split
  · next hhead =>
    obtain ⟨behind, htrim⟩ := List.head?_eq_some_iff.mp hhead
    have hstart := Behind.start (String.ofList ('!' :: behind))
    rw [String.toList_ofList] at hstart
    have hcut : Scanner.cut (String.ofList ('!' :: behind)) 1
        (String.ofList ('!' :: behind)).utf8ByteSize = some behind := Scanner.cut_rest hstart.cons
    rw [readVar?_negated htrim, htrim, hcut]
    rfl
  · next hhead => exact congrArg some (readVar?_plain hhead).symm

theorem read_eq (source : String) (directive : Directive) (argument : List Char) :
    read source directive argument =
      ofVariable source argument directive (readVar? argument) := by
  unfold read
  generalize readVar? argument = found
  rcases found with - | ⟨var, - | -⟩ <;> cases directive <;> rfl

end Guard

namespace Parser

def start : Parser := ⟨0, "", [⟨none, .done⟩]⟩

def push (p : Parser) (b : Block) : Option Parser :=
  match p.frames with
  | [] => none
  | f :: outer => some { p with frames := { f with body := f.body.append b } :: outer }

def flush (p : Parser) : Option Parser :=
  if p.text = "" then some p else push { p with text := "" } (.text p.text .done)

def store (p : Parser) (b : Block) : Option Parser := do (← p.flush).push b

def enter (p : Parser) (guard : Guard) : Option Parser := do
  let p ← p.flush
  return { p with frames := ⟨some guard, .done⟩ :: p.frames }

def leave (s : String) (p : Parser) : Checked Parser := do
  let p ← p.flush
  if p.frames.length < 2 then throw (.unbalancedDirective s)
  else
    match p.frames with
    | ⟨some guard, body⟩ :: outer => push { p with frames := outer } (.guarded guard body .done)
    | _ => throw (.unbalancedDirective s)

def finish (s : String) (p : Parser) : Checked Block := do
  let p ← p.flush
  match p.frames with
  | [f] => return f.body
  | _ => throw (.unbalancedDirective s)

variable (registry : Registry) (owner : Mapping) (s : String)

def take (p : Parser) : Token → Checked Parser
  | .text cs => return { p with text := p.text ++ String.ofList cs }
  | .param name => p.store (.param (String.ofList name) .done)
  | .table business => do
    let m ← registry.mapping (String.ofList business)
    p.store (.table m .done)
  | .column prop => do
    let column ← owner.column (String.ofList prop)
    return { p with text := p.text ++ column.sqlName }
  | .opening directive argument => do
    let var? ← Guard.readBytes argument
    p.enter (← Guard.ofVariable s argument directive var?)
  | .unclosed .. => throw (.unbalancedDirective s)
  | .closing => p.leave s

def step (p : Parser) (b : Char) : Checked Parser := do
  let (token, stop) ← Scanner.next s p.pos b
  take registry owner s { p with pos := stop } token

variable {registry owner s} {p next : Parser}

theorem push_pos {b : Block} (h : p.push b = some next) : next.pos = p.pos := by
  unfold push at h
  split at h <;> cases h
  rfl

theorem flush_pos (h : p.flush = some next) : next.pos = p.pos := by
  unfold flush at h
  split at h
  · cases h
    rfl
  · exact push_pos (p := { p with text := "" }) h

theorem store_pos {b : Block} (h : p.store b = some next) : next.pos = p.pos := by
  obtain ⟨mid, hflush, hpush⟩ := Option.bind_eq_some_iff.mp h
  exact (push_pos hpush).trans (flush_pos hflush)

theorem enter_pos {guard : Guard} (h : p.enter guard = some next) : next.pos = p.pos := by
  obtain ⟨mid, hflush, hnext⟩ := Option.bind_eq_some_iff.mp h
  cases hnext
  have hpos := flush_pos hflush
  exact hpos

theorem leave_pos (h : leave s p = some (.ok next)) : next.pos = p.pos := by
  obtain ⟨mid, hflush, h⟩ := Checked.lift_bind_ok.mp h
  split at h
  · cases h
  split at h
  · have hpos := flush_pos hflush
    exact (push_pos (Checked.lift_ok.mp h)).trans hpos
  · cases h

theorem take_pos {token : Token} (h : take registry owner s p token = some (.ok next)) :
    next.pos = p.pos := by
  cases token with
  | text cs => cases h; rfl
  | param name => exact store_pos (Checked.lift_ok.mp h)
  | table business =>
    obtain ⟨m, -, h⟩ := Checked.bind_ok.mp h
    exact store_pos (Checked.lift_ok.mp h)
  | column prop =>
    obtain ⟨column, -, h⟩ := Checked.bind_ok.mp h
    cases h
    rfl
  | opening directive argument =>
    obtain ⟨var?, -, h⟩ := Checked.lift_bind_ok.mp h
    obtain ⟨guard, -, h⟩ := Checked.bind_ok.mp h
    exact enter_pos (Checked.lift_ok.mp h)
  | unclosed => cases h
  | closing => exact leave_pos h

theorem step_advances {b : Char} (hb : byteAt? s p.pos = some b)
    (h : step registry owner s p b = some (.ok next)) :
    p.pos < next.pos ∧ next.pos ≤ s.utf8ByteSize := by
  obtain ⟨⟨token, stop⟩, hnext, htake⟩ := Checked.bind_ok.mp h
  obtain ⟨hlt, hboundary⟩ := Scanner.next_advances hb hnext
  rw [take_pos htake]
  exact ⟨hlt, String.Pos.Raw.IsValid.le_utf8ByteSize hboundary⟩

def run (registry : Registry) (owner : Mapping) (s : String) (p : Parser) : Checked Block :=
  match hb : byteAt? s p.pos with
  | none => p.finish s
  | some b =>
    match hstep : (step registry owner s p b : Option (Except Fault Parser)) with
    | none => none
    | some (.error e) => some (.error e)
    | some (.ok next) =>
      have := step_advances hb hstep
      run registry owner s next
termination_by s.utf8ByteSize - p.pos
decreasing_by omega

def parse (registry : Registry) (owner : Mapping) (s : String) : Checked Block :=
  run registry owner s start

theorem run_none (hb : byteAt? s p.pos = none) : run registry owner s p = p.finish s := by
  rw [run]
  split
  · rfl
  · next b hsome => rw [hb] at hsome; cases hsome

theorem run_some {b : Char} (hb : byteAt? s p.pos = some b) :
    run registry owner s p = (step registry owner s p b >>= run registry owner s) := by
  rw [run]
  split
  · next hnone => rw [hb] at hnone; cases hnone
  · next b' hsome =>
    obtain rfl : b = b' := Option.some.inj (hb.symm.trans hsome)
    split <;> next hstep =>
      exact (congrArg (fun x : Checked Parser => x >>= run registry owner s) hstep).symm

inductive Stacked : List Frame → Nat → Prop
  | bottom (body : Block) : Stacked [⟨none, body⟩] 0
  | inner (guard : Guard) (body : Block) {frames : List Frame} {depth : Nat}
      (h : Stacked frames depth) : Stacked (⟨some guard, body⟩ :: frames) (depth + 1)

/-- The whole block, if `b` follows in the innermost frame and the others behind its ends. -/
def enclosed : List Frame → Block → List Block → Block
  | ⟨some guard, body⟩ :: frames, b, next :: outer =>
    enclosed frames (.guarded guard (body.append b) next) outer
  | f :: _, b, _ => f.body.append b
  | [], b, _ => b

/-- What the parser comes to when these tokens are left. -/
def answer (registry : Registry) (owner : Mapping) (s : String) (depth : Nat) (p : Parser)
    (tokens : List Token) : Except Fault Block :=
  (Block.build registry owner s depth tokens).map fun built =>
    enclosed p.frames (built.1.merged p.text) (built.2.map (Block.merged ""))

theorem enclosed_append (guard? : Option Guard) (body b next : Block) (frames : List Frame)
    (outer : List Block) : enclosed (⟨guard?, body.append b⟩ :: frames) next outer =
      enclosed (⟨guard?, body⟩ :: frames) (b.append next) outer := by
  cases guard? with
  | none => exact Block.append_assoc body b next
  | some guard =>
    cases outer with
    | nil => exact Block.append_assoc body b next
    | cons behind outer => rw [enclosed, enclosed, Block.append_assoc]

variable {depth : Nat}

theorem push_stacked (h : Stacked p.frames depth) (b : Block) :
    ∃ frames, p.push b = some { p with frames } ∧ Stacked frames depth ∧
      ∀ next outer, enclosed frames next outer = enclosed p.frames (b.append next) outer := by
  obtain ⟨pos, text, frames⟩ := p
  cases h with
  | bottom body => exact ⟨_, rfl, .bottom _, fun next outer => enclosed_append ..⟩
  | inner guard body h => exact ⟨_, rfl, .inner guard _ h, fun next outer => enclosed_append ..⟩

theorem flush_stacked (h : Stacked p.frames depth) :
    ∃ frames, p.flush = some ⟨p.pos, "", frames⟩ ∧ Stacked frames depth ∧
      ∀ next outer,
        enclosed frames next outer = enclosed p.frames (Block.leading p.text next) outer := by
  unfold flush
  split
  · next htext =>
    refine ⟨p.frames, by rw [← htext], h, fun next outer => ?_⟩
    rw [Block.leading, if_pos htext]
  · next htext =>
    obtain ⟨frames, hpush, hframes, henclosed⟩ :=
      push_stacked (p := { p with text := "" }) h (.text p.text .done)
    refine ⟨frames, hpush, hframes, fun next outer => ?_⟩
    rw [henclosed, Block.leading, if_neg htext]
    rfl

theorem store_stacked (h : Stacked p.frames depth) (b : Block) :
    ∃ frames, p.store b = some ⟨p.pos, "", frames⟩ ∧ Stacked frames depth ∧
      ∀ next outer, enclosed frames next outer =
        enclosed p.frames (Block.leading p.text (b.append next)) outer := by
  obtain ⟨flushed, hflush, hflushed, henclosed⟩ := flush_stacked h
  obtain ⟨frames, hpush, hframes, hpushed⟩ := push_stacked (p := ⟨p.pos, "", flushed⟩) hflushed b
  refine ⟨frames, ?_, hframes, fun next outer => (hpushed next outer).trans (henclosed _ outer)⟩
  rw [store, hflush]
  exact hpush

theorem enter_stacked (h : Stacked p.frames depth) (guard : Guard) :
    ∃ frames, p.enter guard = some ⟨p.pos, "", frames⟩ ∧ Stacked frames (depth + 1) ∧
      ∀ body next outer, enclosed frames body (next :: outer) =
        enclosed p.frames (Block.leading p.text (.guarded guard body next)) outer := by
  obtain ⟨flushed, hflush, hflushed, henclosed⟩ := flush_stacked h
  refine ⟨⟨some guard, .done⟩ :: flushed, ?_, .inner guard .done hflushed, ?_⟩
  · rw [enter, hflush]
    rfl
  · intro body next outer
    exact henclosed (.guarded guard body next) outer

theorem leave_bottom (h : Stacked p.frames 0) :
    leave s p = some (.error (.unbalancedDirective s)) := by
  obtain ⟨flushed, hflush, hflushed, -⟩ := flush_stacked h
  rw [leave, Checked.bind_some hflush]
  cases hflushed with
  | bottom body => rfl

theorem leave_inner (h : Stacked p.frames (depth + 1)) :
    ∃ frames, leave s p = some (.ok ⟨p.pos, "", frames⟩) ∧ Stacked frames depth ∧
      ∀ next outer, enclosed frames next outer =
        enclosed p.frames (Block.leading p.text .done) (next :: outer) := by
  obtain ⟨flushed, hflush, hflushed, henclosed⟩ := flush_stacked h
  generalize hdepth : depth + 1 = inside at hflushed
  cases hflushed with
  | bottom body => cases hdepth
  | @inner guard body frames _ hframes =>
    cases hdepth
    obtain ⟨left, hpush, hleft, hpushed⟩ :=
      push_stacked (p := ⟨p.pos, "", frames⟩) hframes (.guarded guard body .done)
    refine ⟨left, ?_, hleft, fun next outer => ?_⟩
    · have hlength : ¬ (⟨some guard, body⟩ :: frames).length < 2 := by
        cases hframes <;> simp
      rw [leave, Checked.bind_some hflush]
      dsimp only
      rw [if_neg hlength, hpush]
      rfl
    · rw [hpushed, ← henclosed, enclosed, Block.append_done]
      rfl

theorem finish_stacked (h : Stacked p.frames depth) :
    p.finish s = some (answer registry owner s depth p []) := by
  obtain ⟨flushed, hflush, hflushed, henclosed⟩ := flush_stacked h
  rw [finish, Checked.bind_some hflush]
  cases hflushed with
  | bottom body =>
    have hbody : enclosed p.frames (Block.leading p.text .done) [] = body :=
      (henclosed .done []).symm.trans (Block.append_done body)
    have hanswer : answer registry owner s 0 p [] =
        .ok (enclosed p.frames (Block.leading p.text .done) []) := rfl
    rw [hanswer, hbody]
    rfl
  | inner guard body hframes => cases hframes <;> rfl

variable (registry owner s depth p) in
/-- The parser that has taken a token stops with the fault that it comes to, or goes on in a state
that comes to the same. -/
inductive Taken (token : Token) (tokens : List Token) : Checked Parser → Prop
  | stops {e : Fault} (h : answer registry owner s depth p (token :: tokens) = .error e) :
    Taken token tokens (some (.error e))
  | goes {next : Parser} {depth' : Nat} (hframes : Stacked next.frames depth')
      (h : answer registry owner s depth p (token :: tokens) =
        answer registry owner s depth' next tokens) :
    Taken token tokens (some (.ok next))

variable {tokens : List Token}

theorem text_taken (h : Stacked p.frames depth) (cs : List Char) :
    Taken registry owner s p depth (.text cs) tokens (take registry owner s p (.text cs)) := by
  refine .goes h ?_
  rw [answer, answer, Block.build]
  cases Block.build registry owner s depth tokens <;> rfl

theorem store_taken (h : Stacked p.frames depth) {token : Token} {alone : Block → Block}
    (halone : ∀ next, (alone .done).append next = alone next)
    (hmerged : ∀ next, (alone next).merged p.text =
      Block.leading p.text (alone (next.merged "")))
    (hbuild : Block.build registry owner s depth (token :: tokens) =
      (Block.build registry owner s depth tokens).map fun built => (alone built.1, built.2)) :
    Taken registry owner s p depth token tokens (liftM (p.store (alone .done))) := by
  obtain ⟨frames, hstore, hframes, henclosed⟩ := store_stacked h (alone .done)
  rw [Checked.lift_ok.mpr hstore]
  refine .goes hframes ?_
  rw [answer, answer, hbuild]
  cases Block.build registry owner s depth tokens with
  | error e => rfl
  | ok built =>
    dsimp only [Except.map]
    rw [henclosed, halone, hmerged]

theorem param_taken (h : Stacked p.frames depth) (name : List Char) :
    Taken registry owner s p depth (.param name) tokens
      (take registry owner s p (.param name)) := by
  refine store_taken h (fun _ => rfl) (fun _ => rfl) ?_
  rw [Block.build]
  cases Block.build registry owner s depth tokens <;> rfl

theorem table_taken (h : Stacked p.frames depth) (business : List Char) :
    Taken registry owner s p depth (.table business) tokens
      (take registry owner s p (.table business)) := by
  rw [take]
  cases hm : registry.mapping (String.ofList business) with
  | error e =>
    refine .stops ?_
    rw [answer, Block.build, hm]
    rfl
  | ok m =>
    refine store_taken h (fun _ => rfl) (fun _ => rfl) ?_
    rw [Block.build, hm]
    cases Block.build registry owner s depth tokens <;> rfl

theorem column_taken (h : Stacked p.frames depth) (prop : List Char) :
    Taken registry owner s p depth (.column prop) tokens
      (take registry owner s p (.column prop)) := by
  rw [take]
  cases hc : owner.column (String.ofList prop) with
  | error e =>
    refine .stops ?_
    rw [answer, Block.build, hc]
    rfl
  | ok column =>
    refine .goes h ?_
    rw [answer, answer, Block.build, hc]
    cases Block.build registry owner s depth tokens <;> rfl

theorem opening_taken (h : Stacked p.frames depth) (directive : Directive)
    (argument : List Char) :
    Taken registry owner s p depth (.opening directive argument) tokens
      (take registry owner s p (.opening directive argument)) := by
  have htake : take registry owner s p (.opening directive argument) =
      (liftM (Guard.read s directive argument) >>= fun guard => liftM (p.enter guard) :
        Checked Parser) := by
    rw [take, Checked.bind_some (Guard.readBytes_eq argument), ← Guard.read_eq]
  rw [htake]
  cases hguard : Guard.read s directive argument with
  | error e =>
    refine .stops ?_
    rw [answer, Block.build, hguard]
    rfl
  | ok guard =>
    obtain ⟨frames, henter, hframes, henclosed⟩ := enter_stacked h guard
    change Taken registry owner s p depth _ tokens (liftM (p.enter guard))
    rw [Checked.lift_ok.mpr henter]
    refine .goes hframes ?_
    rw [answer, answer, Block.build, hguard]
    cases hbuilt : Block.build registry owner s (depth + 1) tokens with
    | error e => rfl
    | ok built =>
      obtain ⟨body, behind⟩ := built
      -- One more directive is open, so there is a block behind its end.
      have hlength := Block.length_build hbuilt
      obtain ⟨next, outer, rfl⟩ := List.exists_cons_of_length_eq_add_one hlength
      exact congrArg Except.ok (henclosed (body.merged "") (next.merged "") _).symm

theorem closing_taken (h : Stacked p.frames depth) :
    Taken registry owner s p depth .closing tokens (take registry owner s p .closing) := by
  rw [take]
  cases depth with
  | zero =>
    rw [leave_bottom h]
    exact .stops rfl
  | succ depth =>
    obtain ⟨frames, hleave, hframes, henclosed⟩ := leave_inner (s := s) h
    rw [hleave]
    refine .goes hframes ?_
    rw [answer, answer, Block.build]
    cases Block.build registry owner s depth tokens with
    | error e => rfl
    | ok built =>
      dsimp only [Except.map]
      rw [henclosed]
      rfl

theorem take_taken (h : Stacked p.frames depth) (token : Token) (tokens : List Token) :
    Taken registry owner s p depth token tokens (take registry owner s p token) := by
  cases token with
  | text cs => exact text_taken h cs
  | param name => exact param_taken h name
  | table business => exact table_taken h business
  | column prop => exact column_taken h prop
  | opening directive argument => exact opening_taken h directive argument
  | unclosed directive rest => exact .stops rfl
  | closing => exact closing_taken h

theorem step_answer {c b : Char} {rest : List Char} (h : Stacked p.frames depth)
    (hbehind : Behind s p.pos (c :: rest)) (hb : byteAt? s p.pos = some b) :
    (∃ e, step registry owner s p b = some (.error e) ∧
      answer registry owner s depth p (Token.scan (c :: rest)) = .error e) ∨
    ∃ next depth' behind, step registry owner s p b = some (.ok next) ∧
      Stacked next.frames depth' ∧ Behind s next.pos behind ∧
      answer registry owner s depth p (Token.scan (c :: rest)) =
        answer registry owner s depth' next (Token.scan behind) := by
  have hfound := Scanner.next_found hbehind hb
  rw [Token.scan]
  generalize hnext : Scanner.next s p.pos b = found at hfound
  generalize Token.next c rest = first at hfound
  cases hfound with
  | unclosed directive unread behind =>
    refine .inl ⟨.unbalancedDirective s, ?_, rfl⟩
    rw [step, hnext]
    rfl
  | @token token behind stop hlt hstop =>
    have hstep : step registry owner s p b =
        take registry owner s { p with pos := stop } token := by
      rw [step, hnext]
      rfl
    rw [hstep]
    have htaken : Taken registry owner s { p with pos := stop } depth token (Token.scan behind)
        (take registry owner s { p with pos := stop } token) := by
      apply take_taken
      exact h
    generalize htake : take registry owner s { p with pos := stop } token = taken at htaken ⊢
    cases htaken with
    | stops hanswer => exact .inl ⟨_, rfl, hanswer⟩
    | goes hframes hanswer =>
      refine .inr ⟨_, _, behind, rfl, hframes, ?_, hanswer⟩
      rw [take_pos htake]
      exact hstop

/-- From a state in front of characters the parser ends, with what the state comes to. -/
theorem run_answer (p : Parser) {depth : Nat} {rest : List Char} (h : Stacked p.frames depth)
    (hbehind : Behind s p.pos rest) :
    run registry owner s p = some (answer registry owner s depth p (Token.scan rest)) := by
  cases rest with
  | nil =>
    rw [run_none hbehind.byteAt_nil, Token.scan]
    exact finish_stacked h
  | cons c rest =>
    obtain ⟨b, hb⟩ := hbehind.exists_byteAt
    rw [run_some hb]
    rcases step_answer h hbehind hb with
      ⟨e, hstep, hanswer⟩ | ⟨next, depth', behind, hstep, hframes, hpos, hanswer⟩
    · rw [hstep, hanswer]
      rfl
    · -- Fewer bytes are left, and what the state comes to is the same.
      have hadvances := step_advances hb hstep
      rw [hstep, hanswer]
      exact run_answer next hframes hpos
termination_by s.utf8ByteSize - p.pos
decreasing_by omega

theorem parse_eq (registry : Registry) (owner : Mapping) (s : String) :
    parse registry owner s = some ((Block.ofText registry owner s).map (Block.merged "")) := by
  rw [parse, run_answer start (.bottom .done) (Behind.start s), answer, Block.ofText]
  cases Block.build registry owner s 0 (Token.scan s.toList) <;> rfl

def compile (registry : Registry) (owner : Mapping) (s : String) : Checked Template := do
  let body ← parse registry owner s
  return { mapping := owner, text := s, body := body }

theorem compile_eq (registry : Registry) (owner : Mapping) (s : String) :
    compile registry owner s = some ((Template.compile registry owner s).map fun t =>
      { t with body := t.body.merged "" }) := by
  rw [compile, parse_eq, Template.compile]
  cases Block.ofText registry owner s <;> rfl

/-- The states in which the loop looks for the next byte. -/
inductive Reaches (registry : Registry) (owner : Mapping) (s : String) : Parser → Prop
  | start : Reaches registry owner s start
  | step {p next : Parser} {b : Char} (h : Reaches registry owner s p)
      (hb : byteAt? s p.pos = some b) (hstep : step registry owner s p b = some (.ok next)) :
      Reaches registry owner s next

theorem Reaches.stacked (h : Reaches registry owner s p) :
    ∃ depth rest, Stacked p.frames depth ∧ Behind s p.pos rest := by
  induction h with
  | start => exact ⟨0, s.toList, .bottom .done, Behind.start s⟩
  | @step p next b h hb hstep ih =>
    obtain ⟨depth, rest, hframes, hbehind⟩ := ih
    cases rest with
    | nil =>
      rw [hbehind.byteAt_nil] at hb
      cases hb
    | cons c rest =>
      rcases step_answer hframes hbehind hb with
        ⟨e, herror, -⟩ | ⟨next', depth', behind, hnext, hframes, hpos, -⟩
      · rw [hstep] at herror
        cases herror
      · rw [hstep] at hnext
        cases hnext
        exact ⟨depth', behind, hframes, hpos⟩

/-- The loop always stands between two characters, and a turn of it has an outcome: a fault, or
a state further on in the text. -/
theorem Reaches.turn (h : Reaches registry owner s p) : IsBoundary s p.pos ∧
    ∀ b, byteAt? s p.pos = some b →
      (∃ e, Parser.step registry owner s p b = some (.error e)) ∨
      ∃ next, Parser.step registry owner s p b = some (.ok next) ∧
        p.pos < next.pos ∧ next.pos ≤ s.utf8ByteSize := by
  obtain ⟨depth, rest, hframes, hbehind⟩ := h.stacked
  refine ⟨hbehind.isBoundary, fun b hb => ?_⟩
  cases rest with
  | nil =>
    rw [hbehind.byteAt_nil] at hb
    cases hb
  | cons c rest =>
    rcases step_answer hframes hbehind hb with ⟨e, herror, -⟩ | ⟨next, _, _, hnext, -⟩
    · exact .inl ⟨e, herror⟩
    · exact .inr ⟨next, hnext, step_advances hb hnext⟩

end Parser

end DataAccess
