import SqlCaret.Files.Expand

/-!
# Files — written

What a file tree is after a file was written.  Every place that a path led to it still leads to,
since nothing goes on behind a file and no folder is lost (`FileTree.follow_put`); so the path of
the file leads to the file, with the content that was written (`FileTree.exists_place_of_write`).
-/

namespace SqlCaret

namespace FileTree

variable {t : FileTree} {pl : Place} {content : List UInt8}

theorem file?_put_self (t : FileTree) (pl : Place) (content : List UInt8) :
    (t.put pl content).file? pl = some content := by
  simp [file?, put]

theorem file?_put_of_ne {other : Place} (h : other ≠ pl) :
    (t.put pl content).file? other = t.file? other := by
  have hfilter : (t.files.filter (·.1 != pl)).find? (·.1 == other) =
      t.files.find? (·.1 == other) := by
    rw [List.find?_filter]
    congr 1
    funext f
    by_cases hf : f.1 = other
    · simp [hf, h]
    · simp [hf]
  simp only [file?, put]
  rw [List.find?_cons_of_neg (by simpa using Ne.symm h), hfilter]

/-- Folders stay, the one of the file included. -/
theorem hasFolder_put {other : Place} (h : t.hasFolder other = true) :
    (t.put pl content).hasFolder other = true := by
  simp only [hasFolder, Bool.or_eq_true, List.any_eq_true] at h ⊢
  rcases h with h | ⟨f, hf, hprefix⟩
  · exact .inl h
  · refine .inr ?_
    by_cases hpl : f.1 = pl
    · exact ⟨(pl, content), by simp [put], hpl ▸ hprefix⟩
    · exact ⟨f, by simp [put, hf, hpl], hprefix⟩

/-- Where names led they still lead, if the file is not where a folder is. -/
theorem follow_put (hfolder : t.hasFolder pl = false) {start stop : Place}
    {names : List (List Char)} (h : t.follow start names = .ok stop) :
    (t.put pl content).follow start names = .ok stop := by
  induction names generalizing start with
  | nil => exact h
  | cons n ns ih =>
      rw [follow] at h ⊢
      split at h
      case isTrue => exact nomatch h
      case isFalse hfile =>
        split at h
        case isTrue => exact nomatch h
        case isFalse hstart =>
          have hstart : t.hasFolder start = true := by simpa using hstart
          -- the way leads through folders, and the file is put where none is
          have hne : start ≠ pl := by
            rintro rfl
            exact Bool.noConfusion (hstart.symm.trans hfolder)
          rw [file?_put_of_ne hne, if_neg hfile, hasFolder_put hstart]
          simp only [Bool.not_true, Bool.false_eq_true, if_false]
          split at h
          case isTrue hstay => rw [if_pos hstay]; exact ih h
          case isFalse hstay =>
            rw [if_neg hstay]
            split at h
            case isTrue hup => rw [if_pos hup]; exact ih h
            case isFalse hup =>
              rw [if_neg hup]
              split at h
              case isTrue => exact nomatch h
              case isFalse hname => rw [if_neg hname]; exact ih h

theorem resolve_put (hfolder : t.hasFolder pl = false) {p : Path} {stop : Place}
    (h : t.resolve p = .ok stop) : (t.put pl content).resolve p = .ok stop := by
  unfold resolve at h ⊢
  split at h
  case isTrue => exact nomatch h
  case isFalse hempty =>
    split at h
    case isTrue => exact nomatch h
    case isFalse hname =>
      split at h
      case isTrue => exact nomatch h
      case isFalse hlong =>
        rw [if_neg hempty, if_neg hname, if_neg hlong]
        exact follow_put hfolder h

/-- The path of a file that was written leads to the file. -/
theorem exists_place_of_write {t' : FileTree} {p : Path} (h : t.write p content = .ok t') :
    ∃ pl, t'.resolve p = .ok pl ∧ t'.file? pl = some content := by
  cases hresolve : t.resolve p with
  | error fault => rw [write, hresolve] at h; exact nomatch h
  | ok pl =>
      rw [write, hresolve] at h
      by_cases hfolder : t.hasFolder pl = true
      · simp [bind, Except.bind, hfolder] at h
      · have hfolder : t.hasFolder pl = false := by simpa using hfolder
        simp only [bind, Except.bind, hfolder, Bool.false_eq_true, if_false, Except.ok.injEq] at h
        subst h
        exact ⟨pl, resolve_put hfolder hresolve, file?_put_self t pl content⟩

theorem read_of_file? {p : Path} (hresolve : t.resolve p = .ok pl)
    (hfile : t.file? pl = some content) : t.read p = .ok content := by
  rw [read, hresolve]
  simp only [bind, Except.bind, hfile]

end FileTree

namespace Path

theorem expandVariables_of_notMem (env : Environment) (fuel : Nat) {p : Path} (h : '$' ∉ p) :
    expandVariables env fuel p = some p := by
  induction p generalizing fuel with
  | nil => cases fuel <;> rfl
  | cons c cs ih =>
      rw [List.mem_cons, not_or] at h
      cases fuel with
      | zero => rfl
      | succ fuel =>
          have hc : c ≠ '$' := Ne.symm h.1
          simp [expandVariables, hc, ih fuel h.2]

/-- A path that refers to nothing is expanded to itself. -/
theorem expand_eq_self (env : Environment) {p : Path} (hdollar : '$' ∉ p)
    (htilde : p.head? ≠ some '~') : expand env p = p := by
  rw [expand, expandVariables_of_notMem env p.length hdollar]
  simp [htilde]

end Path

end SqlCaret
