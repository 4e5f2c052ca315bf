import DocTable.Engine.Session
import DocTable.Text.Case
/-!
# DocTable.Engine.Rules

Engines that are given by rules: the first rule whose beginning a statement has decides the
reply. Without one, a journal mode is answered with itself, a count with zero, and anything else
with no rows. A rule with numbers that no engine has is passed over.
-/

namespace DocTable

/-- A rule of an engine. -/
structure Rule where
  /-- How the statement begins. -/
  start : Text
  reply : Reply

namespace Rules

/-- The text that rules look at. -/
def textOf : Call → Text
  | .connect _ => "<connect>".toList
  | .run text _ | .runMany text _ => text
  | .close => []

/-- The reply to a statement for which there is no rule. -/
def fallback (text : Text) : Reply :=
  match Text.afterStart? "PRAGMA journal_mode=".toList text with
  | some mode => .rows [[.text mode]] 0
  | none =>
    if Text.lower (text.take 15) = "select count(*)".toList then .rows [[.int 0]] 0
    else .rows [] 0

theorem isShowable_fallback (text : Text) : (fallback text).isShowable = true := by
  unfold fallback
  split
  · rfl
  · split
    · rfl
    · rfl

/-- The reply to a call: that of the first rule for it, if there is one. -/
def reply (rules : List Rule) (call : Call) : Reply :=
  match rules.find? fun r => r.start.isPrefixOf (textOf call) && r.reply.isShowable with
  | some r => r.reply
  | none => fallback (textOf call)

/-- A reply is that of a rule for the call, or the one without a rule. -/
theorem reply_cases (rules : List Rule) (call : Call) :
    (∃ rule ∈ rules, rule.start <+: textOf call ∧ reply rules call = rule.reply) ∨
      reply rules call = fallback (textOf call) := by
  unfold reply
  split
  · next rule hrule =>
    have hfound := List.find?_some hrule
    rw [Bool.and_eq_true] at hfound
    exact .inl ⟨rule, List.mem_of_find?_eq_some hrule, List.isPrefixOf_iff_prefix.1 hfound.1, rfl⟩
  · exact .inr rfl

theorem exists_fallback (text : Text) : ∃ rows changes, fallback text = .rows rows changes := by
  unfold fallback
  split
  · exact ⟨_, _, rfl⟩
  · split
    · exact ⟨_, _, rfl⟩
    · exact ⟨_, _, rfl⟩

theorem isShowable_reply (rules : List Rule) (call : Call) :
    (reply rules call).isShowable = true := by
  unfold reply
  split
  · next rule hrule =>
    have hfound := List.find?_some hrule
    rw [Bool.and_eq_true] at hfound
    exact hfound.2
  · exact isShowable_fallback _

/-- The engine that follows rules. -/
def engine (rules : List Rule) : Engine where
  reply _ call := reply rules call
  isShowable _ call := isShowable_reply rules call

end Rules

end DocTable
