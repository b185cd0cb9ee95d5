import Mathlib.Data.List.DropRight
import PercentFormat.Session

/-!
# What a session keeps of its history

A session is a formatter and a list of arguments, and both can be read off the commands it has
obeyed: the nil token is the one that was set last, and the arguments are those that were added since
they were last dropped.  What was formatted in between, and what came of it, is not in there, and
neither is a description that was refused.  So a template is formatted as if the formatter had just
been built and the arguments had just been collected.

## Main definitions

* `Json.Describes`: the JSON values that describe a formatter, and the nil token it has
* `Session.tokenAfter`, `Session.argumentsAfter`: what is left of a history

## Main results

* `ofJson?_eq_some_iff`: the descriptions that are accepted
* `step_ofHistory`, `run_ofHistory`: what one command changes, and what a session keeps
* `run_format_afresh`: every template is formatted afresh
-/

namespace PercentFormat

/-! ## Descriptions -/

/-- A JSON value describes the formatter with a nil token: as an object, by the member of that name,
whatever other members it has; as an array, by its only element.  What is left out is the default. -/
inductive Json.Describes : Json → String → Prop
  | object_default {names : List String} {distinct : names.Nodup}
    {member : Fin names.length → Json} (missing : "nil_token" ∉ names) :
    Describes (.object names distinct member) defaultNilToken
  | object_token {names : List String} {distinct : names.Nodup} {member : Fin names.length → Json}
    (i : Fin names.length) (named : names[i] = "nil_token") {nilToken : String}
    (token : member i = .string nilToken) : Describes (.object names distinct member) nilToken
  | array_default : Describes (.array []) defaultNilToken
  | array_token (nilToken : String) : Describes (.array [.string nilToken]) nilToken

namespace Formatter

theorem ofToken?_eq_some_iff {token : Json} {f : Formatter} :
    ofToken? token = some f ↔ token = .string f.nilToken := by
  cases token with
  | string s =>
    rw [ofToken?, Option.some.injEq, Json.string.injEq]
    constructor
    · rintro rfl
      rfl
    · rintro rfl
      rfl
  | _ => simp [ofToken?]

/-- **The descriptions that are accepted.** -/
theorem ofJson?_eq_some_iff {description : Json} {f : Formatter} :
    ofJson? description = some f ↔ description.Describes f.nilToken := by
  constructor
  · intro h
    unfold ofJson? at h
    split at h
    next names distinct member =>
      split at h
      next hnone =>
        cases h
        exact .object_default (List.finIdxOf?_eq_none_iff.mp hnone)
      next i hi =>
        exact .object_token i (List.finIdxOf?_eq_some_iff.mp hi).1 (ofToken?_eq_some_iff.mp h)
    next =>
      cases h
      exact .array_default
    next token =>
      obtain rfl := ofToken?_eq_some_iff.mp h
      exact .array_token _
    next => cases h
  · obtain ⟨nilToken⟩ := f
    rintro (@⟨names, distinct, member, hmissing⟩ | @⟨names, distinct, member, i, hi, _, htoken⟩ | _ | _)
    · rw [ofJson?, List.finIdxOf?_eq_none_iff.mpr hmissing]
      rfl
    · have hindex : names.finIdxOf? "nil_token" = some i := by
        refine List.finIdxOf?_eq_some_iff.mpr ⟨hi, fun j hj hname => ?_⟩
        have hij : j.val = i.val := (List.getElem_inj distinct).mp (hname.trans hi.symm)
        omega
      rw [ofJson?, hindex]
      exact ofToken?_eq_some_iff.mpr htoken
    · rfl
    · rfl

end Formatter

/-! ## What a command changes -/

namespace Command

/-- The nil token that a command sets, if it sets one. -/
def token? : Command → Option String
  | build nilToken => some (nilToken.getD defaultNilToken)
  | replaceToken nilToken => some nilToken
  | load description => (Formatter.ofJson? description).map Formatter.nilToken
  | push _ | clear | format _ => none

/-- The argument that a command adds, if it adds one. -/
def argument? : Command → Option Value
  | push argument => some argument
  | _ => none

/-- Whether a command drops all arguments. -/
def isClear : Command → Bool
  | clear => true
  | _ => false

end Command

namespace Session

/-- The nil token that was set last; the default one if none was set. -/
def tokenAfter (history : List Command) : String :=
  (history.filterMap Command.token?).getLast?.getD defaultNilToken

/-- The arguments that were added since they were last dropped. -/
def argumentsAfter (history : List Command) : List Value :=
  (history.rtakeWhile fun command => !command.isClear).filterMap Command.argument?

theorem tokenAfter_concat (history : List Command) (command : Command) :
    tokenAfter (history ++ [command]) = command.token?.getD (tokenAfter history) := by
  rw [tokenAfter, List.filterMap_append, List.getLast?_append]
  cases h : command.token? with
  | none => simp [h, tokenAfter]
  | some token => simp [h]

theorem argumentsAfter_concat {command : Command} (h : command.isClear = false)
    (history : List Command) :
    argumentsAfter (history ++ [command]) =
      argumentsAfter history ++ command.argument?.toList := by
  rw [argumentsAfter, List.rtakeWhile_concat_pos _ _ _ (by simp [h]), List.filterMap_append]
  cases ha : command.argument? <;> simp [ha, argumentsAfter]

theorem argumentsAfter_concat_clear (history : List Command) :
    argumentsAfter (history ++ [.clear]) = [] := by
  rw [argumentsAfter, List.rtakeWhile_concat_neg _ _ _ (by simp [Command.isClear])]
  rfl

/-- The session that has just been told the token and the arguments that are left of a history. -/
def ofHistory (history : List Command) : Session :=
  ⟨⟨tokenAfter history⟩, argumentsAfter history⟩

/-- Any command but the one that drops the arguments adds what it sets and what it adds. -/
theorem ofHistory_concat {command : Command} (h : command.isClear = false)
    (history : List Command) :
    ofHistory (history ++ [command]) =
      ⟨⟨command.token?.getD (tokenAfter history)⟩,
        argumentsAfter history ++ command.argument?.toList⟩ := by
  rw [ofHistory, tokenAfter_concat, argumentsAfter_concat h]

/-- **A command changes what is left of the history, and nothing else.** -/
theorem step_ofHistory (history : List Command) (command : Command) :
    ((ofHistory history).step command).1 = ofHistory (history ++ [command]) := by
  cases command with
  | build nilToken =>
    rw [ofHistory_concat rfl]
    cases nilToken <;> simp [ofHistory, step, adopt, Command.token?, Command.argument?,
      Formatter.withNilToken]
  | replaceToken nilToken =>
    rw [ofHistory_concat rfl]
    simp [ofHistory, step, adopt, Command.token?, Command.argument?, Formatter.withNilToken]
  | load description =>
    rw [ofHistory_concat rfl]
    cases h : Formatter.ofJson? description <;>
      simp [ofHistory, step, adopt, Command.token?, Command.argument?, h]
  | push argument =>
    rw [ofHistory_concat rfl]
    simp [ofHistory, step, Command.token?, Command.argument?]
  | clear =>
    rw [ofHistory, ofHistory, tokenAfter_concat, argumentsAfter_concat_clear]
    rfl
  | format template =>
    rw [ofHistory_concat rfl]
    simp [ofHistory, step, Command.token?, Command.argument?]

/-- **A session keeps what is left of its history.** -/
theorem run_ofHistory (history : List Command) :
    (({} : Session).run history).1 = ofHistory history := by
  induction history using List.reverseRecOn with
  | nil => rfl
  | append_singleton history command ih => rw [run_append, ih, ← step_ofHistory]; rfl

theorem length_replies (s : Session) (commands : List Command) :
    (s.run commands).2.length = commands.length := by
  induction commands generalizing s with
  | nil => rfl
  | cons command commands ih => simp [run, ih]

/-- A command is replied to in the state that those before it have left. -/
theorem getElem?_replies (s : Session) (before after : List Command) (command : Command) :
    (s.run (before ++ command :: after)).2[before.length]? =
      some ((s.run before).1.step command).2 := by
  rw [run_append]
  dsimp only
  rw [List.getElem?_append_right (by rw [length_replies]), length_replies, Nat.sub_self]
  rfl

theorem step_load_refused_iff (s : Session) (description : Json) :
    s.step (.load description) = (s, .refused) ↔ ¬ ∃ nilToken, description.Describes nilToken := by
  rw [step]
  cases h : Formatter.ofJson? description with
  | none =>
    refine iff_of_true rfl ?_
    rintro ⟨nilToken, hd⟩
    have hsome : Formatter.ofJson? description = some ⟨nilToken⟩ :=
      Formatter.ofJson?_eq_some_iff.mpr hd
    rw [h] at hsome
    cases hsome
  | some f =>
    refine iff_of_false (fun heq => ?_) ?_
    · cases (Prod.mk.inj heq).2
    · exact not_not_intro ⟨f.nilToken, Formatter.ofJson?_eq_some_iff.mp h⟩

/-- **Every template is formatted afresh.**  Wherever a template stands among the commands to a
session, what comes of it is what comes of a formatter that has just been built, with the nil token
that was set last, over the arguments that were added since they were last dropped.  It does not
matter what was formatted before, nor whether that succeeded: formatting leaves the session as it
was, and so does a description that is refused.  A description sets the token that it describes, and
it is refused exactly if it describes none. -/
theorem run_format_afresh (before after : List Command) (template : String) :
    (({} : Session).run (before ++ .format template :: after)).2[before.length]? =
        some (.formatted
          (({ nilToken := tokenAfter before } : Formatter).format template
            (argumentsAfter before))) ∧
      (({} : Session).run before).1 = ⟨{ nilToken := tokenAfter before }, argumentsAfter before⟩ ∧
      (∀ s : Session, (s.step (.format template)).1 = s) ∧
      (∀ (s : Session) (description : Json), s.step (.load description) = (s, .refused) ↔
        ¬ ∃ nilToken, description.Describes nilToken) ∧
      ∀ (description : Json) (f : Formatter),
        Formatter.ofJson? description = some f ↔ description.Describes f.nilToken := by
  refine ⟨?_, run_ofHistory before, fun _ => rfl, step_load_refused_iff, ?_⟩
  · rw [getElem?_replies, run_ofHistory]
    rfl
  · intro description f
    exact Formatter.ofJson?_eq_some_iff

example :
    tokenAfter [.build (some "-"), .format "%", .load (.array [.null])] = "-" ∧
      argumentsAfter [.push (.int 1), .clear, .push (.int 2), .format "%d %d"] = [.int 2] :=
  ⟨rfl, rfl⟩

end Session

end PercentFormat
