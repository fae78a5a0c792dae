import ScriptAgent.Instrument.Compile
import ScriptAgent.Proofs.Instrument.LineByLine

/-!
# The names that a script is said to declare or assign

They are read off line by line: where a statement can begin, the line's first words tell which name it declares or
assigns.  A declaration counts outside of brackets only; what else a line holds does not count.
-/

namespace ScriptAgent

variable {name : String}

namespace NameSet

theorem mem_insert {names : NameSet} {n : String} : name ∈ names.insert n ↔ name ∈ names ∨ name = n := by
  induction names with
  | nil => simp [NameSet.insert]
  | cons first rest ih =>
    unfold NameSet.insert
    split
    · next hfirst =>
      obtain rfl := eq_of_beq hfirst
      exact ⟨.inl, fun h => h.elim id fun heq => heq ▸ List.mem_cons_self⟩
    · split
      · rw [List.mem_cons, or_comm]
      · rw [List.mem_cons, ih, List.mem_cons, or_assoc]

theorem mem_union {a b : NameSet} : name ∈ a.union b ↔ name ∈ a ∨ name ∈ b := by
  unfold NameSet.union
  induction b generalizing a with
  | nil => simp
  | cons n b ih => rw [List.foldl_cons, ih, mem_insert, List.mem_cons, or_assoc]

/-- A name that was found joins the others. -/
theorem mem_elim_insert {names : NameSet} {found : Option String} :
    name ∈ found.elim names names.insert ↔ name ∈ names ∨ found = some name := by
  cases found with
  | none => simp
  | some n => rw [Option.elim_some, mem_insert, Option.some.injEq, eq_comm]

end NameSet

namespace Hooking

/-- The next line begins a statement, as far as the scanner can tell, that declares a name outside of brackets or that
assigns it. -/
def Names (r : Hooking) (line : List Char) (name : String) : Prop :=
  r.starting line = true ∧ (r.scanner.depth = 0 ∧ Line.declaredName (Text.dropBlank line) = some name ∨
    Line.assignedName (Text.dropBlank line) = some name)

instance (r : Hooking) (line : List Char) (name : String) : Decidable (r.Names line name) :=
  inferInstanceAs (Decidable (_ ∧ _))

/-- A name is known. -/
def Knows (r : Hooking) (name : String) : Prop :=
  name ∈ r.declared ∨ name ∈ r.assigned

theorem declared_addLine (r : Hooking) (line : List Char) : (r.addLine line).declared =
    (if r.starting line && r.scanner.depth == 0 then Line.declaredName (Text.dropBlank line) else none).elim
      r.declared r.declared.insert := by
  unfold addLine starting
  dsimp only
  split
  · next n h => rw [h, Option.elim_some]
  · next h => rw [h, Option.elim_none]

theorem assigned_addLine (r : Hooking) (line : List Char) : (r.addLine line).assigned =
    (if r.starting line then Line.assignedName (Text.dropBlank line) else none).elim r.assigned r.assigned.insert := by
  unfold addLine starting
  dsimp only
  split
  · next n h => rw [h, Option.elim_some]
  · next h => rw [h, Option.elim_none]

theorem knows_addLine (r : Hooking) (line : List Char) : (r.addLine line).Knows name ↔ r.Knows name ∨ r.Names line name := by
  unfold Knows Names
  rw [declared_addLine, assigned_addLine, NameSet.mem_elim_insert, NameSet.mem_elim_insert]
  cases r.starting line with
  | false => simp
  | true =>
    by_cases hdepth : r.scanner.depth = 0
    · simp [hdepth, or_or_or_comm]
    · simp [hdepth, or_assoc]

/-- The names that are known after some lines are those known before them and those that one of the lines names. -/
theorem knows_foldl_addLine (lines : List (List Char)) (r : Hooking) : (lines.foldl addLine r).Knows name ↔
    r.Knows name ∨ ∃ n line, lines[n]? = some line ∧ ((lines.take n).foldl addLine r).Names line name := by
  induction lines generalizing r with
  | nil => simp
  | cons line lines ih =>
    rw [List.foldl_cons, ih, knows_addLine, or_assoc]
    refine or_congr_right ⟨?_, ?_⟩
    · rintro (hfirst | ⟨n, l, hl, hnames⟩)
      · exact ⟨0, line, rfl, hfirst⟩
      · exact ⟨n + 1, l, hl, hnames⟩
    · rintro ⟨n, l, hl, hnames⟩
      cases n with
      | zero =>
        obtain rfl := Option.some.inj hl
        exact .inl hnames
      | succ n => exact .inr ⟨n, l, hl, hnames⟩

end Hooking

/-- Line `n` of a script, counted from zero, names a variable that the script is said to declare or to assign. -/
def Tracks (source name : String) (n : Nat) : Prop :=
  ∃ line ∈ (Text.lineChars source.toList)[n]?, (Hooking.before (Text.lineChars source.toList) n).Names line name

instance (source name : String) (n : Nat) : Decidable (Tracks source name n) :=
  inferInstanceAs (Decidable (∃ line ∈ (Text.lineChars source.toList)[n]?, _))

/-- A compiled script tracks the names that its lines name and no others. -/
theorem mem_variables_compile {source : String} {compiled : Compiled} (h : compile source = .ok compiled) :
    name ∈ compiled.variables ↔ ∃ n, Tracks source name n := by
  have hvariables : compiled.variables = NameSet.union (instrument source).declared (instrument source).assigned := by
    unfold compile at h
    dsimp only at h
    split at h
    · cases h
      rfl
    · split at h
      · cases h
        rfl
      · cases h
  have hnone : ¬ Hooking.Knows {} name := by rintro (h | h) <;> cases h
  rw [hvariables, NameSet.mem_union]
  exact (Hooking.knows_foldl_addLine (Text.lineChars source.toList) {}).trans (or_iff_right hnone)

end ScriptAgent
