import OpenPoly.Lib.Ring
import OpenPoly.Spec.Python

/-! `SectionLogStore`: the ring of a section's latest rows, with a counter for each
verdict over all of them. -/

namespace OpenPoly

/-- The `Verdict` of a section. -/
inductive SectionVerdict where
  | ok
  | skip
  | failOpen
  | error
  deriving DecidableEq, Repr

/-- What the store reads off an entry. -/
class LogEntry (E : Type) where
  verdict : E → Option SectionVerdict
  ts : E → ℚ

structure SectionLog (E : Type) where
  maxlen : ℕ
  events : List E
  counters : SectionVerdict → ℕ
  lastAt : Option ℚ

variable {E : Type} [LogEntry E]

def SectionLog.empty (maxlen : ℕ) : SectionLog E := ⟨maxlen, [], fun _ => 0, none⟩

def SectionLog.append (log : SectionLog E) (entry : E) : SectionLog E where
  maxlen := log.maxlen
  events := Ring.push log.maxlen log.events entry
  counters v := log.counters v + if LogEntry.verdict entry = some v then 1 else 0
  lastAt := some (LogEntry.ts entry)

omit [LogEntry E] in
def SectionLog.entries (log : SectionLog E) : Option ℤ → List E
  | none => log.events
  | some limit =>
    if log.events.length ≤ limit then log.events
    else if limit ≤ 0 then []
    else log.events.rtake limit.toNat

def SectionLog.of (maxlen : ℕ) (rows : List E) : SectionLog E :=
  rows.foldl SectionLog.append (.empty maxlen)

theorem SectionLog.of_append (maxlen : ℕ) (rows more : List E) :
    SectionLog.of maxlen (rows ++ more) = more.foldl SectionLog.append (.of maxlen rows) := by
  unfold SectionLog.of
  rw [List.foldl_append]

/-- A log shows the last rows put into it, at most as many as it has room for, and its
counters are over all of them. -/
theorem SectionLog.of_spec (maxlen : ℕ) (rows : List E) :
    (SectionLog.of maxlen rows).maxlen = maxlen ∧ (SectionLog.of maxlen rows).events = rows.rtake maxlen ∧
      ∀ v, (SectionLog.of maxlen rows).counters v = rows.countP fun e => LogEntry.verdict e = some v := by
  induction rows using List.reverseRecOn with
  | nil => simp [SectionLog.of, SectionLog.empty]
  | append_singleton rows row ih =>
    obtain ⟨hmaxlen, hevents, hcounters⟩ := ih
    rw [SectionLog.of_append, List.foldl_cons, List.foldl_nil]
    refine ⟨hmaxlen, ?_, ?_⟩
    · unfold SectionLog.append Ring.push
      rw [hmaxlen, hevents, Ring.rtake_rtake_snoc]
    · intro v
      unfold SectionLog.append
      dsimp only
      rw [hcounters, List.countP_append, List.countP_singleton]
      simp

end OpenPoly
