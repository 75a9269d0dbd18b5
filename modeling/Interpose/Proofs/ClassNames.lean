import Interpose.Proofs.Dispatching
import Interpose.Proofs.Openings
import Interpose.Proofs.Scopes

/-!
# Class names

A class is declared by one identifier. The proxies of settings that pass the check, and their
dispatcher, are declared so exactly where no dot stands in the settings for their classes, although
the check lets a dot pass: `singleClasses_iff`.
-/

namespace Interpose

namespace Text

/-- The text is one identifier. -/
def Single (name : String) : Prop := dotted name ∧ '.' ∉ name.toList

instance (name : String) : Decidable (Single name) :=
  inferInstanceAs (Decidable (dotted name = true ∧ '.' ∉ name.toList))

/-- What a text holds in front of its last dot and behind it. -/
def splitAtLastDot (text : String) : Option (String × String) :=
  match text.toList.reverse.dropWhile (· ≠ '.') with
  | [] => none
  | _ :: front => some (String.ofList front.reverse,
      String.ofList (text.toList.reverse.takeWhile (· ≠ '.')).reverse)

theorem splitAtLastDot_eq_some_iff {text front back : String} :
    splitAtLastDot text = some (front, back) ↔
      text = front ++ "." ++ back ∧ '.' ∉ back.toList := by
  have parted := List.takeWhile_append_dropWhile (p := (· ≠ '.')) (l := text.toList.reverse)
  constructor
  · intro found
    unfold splitAtLastDot at found
    split at found
    · cases found
    · rename_i c rest dropped
      obtain ⟨rfl, rfl⟩ := Prod.mk.inj (Option.some.inj found)
      have dot : c = '.' := by
        have first := List.head?_dropWhile_not (· ≠ '.') text.toList.reverse
        rw [dropped] at first
        simpa using first
      refine ⟨?_, ?_⟩
      · apply String.toList_injective
        rw [dropped, dot] at parted
        have letters := congrArg List.reverse parted
        simpa using letters.symm
      · rw [String.toList_ofList, List.mem_reverse]
        intro member
        simpa using List.mem_takeWhile_imp member
  · rintro ⟨rfl, absent⟩
    have letters : (front ++ "." ++ back).toList.reverse =
        back.toList.reverse ++ '.' :: front.toList.reverse := by simp
    have before : ∀ c ∈ back.toList.reverse, decide (c ≠ '.') = true := by
      intro c member
      rw [decide_eq_true_eq]
      rintro rfl
      exact absent (List.mem_reverse.mp member)
    rw [splitAtLastDot, letters, List.dropWhile_append_of_pos before,
      List.takeWhile_append_of_pos before]
    simp

/-- The name in the first line that declares a class. -/
def className? (text : String) : Option String :=
  ((lines text).findSome? (between (Writer.indentation 1 ++ "public sealed class ") "")).map
    fun title => String.ofList (title.toList.takeWhile (· ≠ ' '))

end Text

open Writer (indentation)

/-! ### Reading a class -/

theorem Text.className?_declared {scope title : String} (scopeWord : Unbroken scope)
    (titleWord : Unbroken title) (contract rest : String) :
    className? (ofLines (Artifact.declared scope title contract) ++ rest) = some title := by
  obtain ⟨behind, others, header⟩ : ∃ behind others,
      lines (indentation 1 ++ ("public sealed class " ++ title ++ " :" ++
          trimEnd (" " ++ contract))) =
        (indentation 1 ++ "public sealed class " ++ (title ++ " :" ++ behind) ++ "") :: others := by
    have one : OneLine (indentation 1 ++ "public sealed class " ++ title ++ " :") := by
      simp only [oneLine_append]
      exact ⟨⟨by decide, titleWord.oneLine⟩, by decide⟩
    obtain ⟨behind, others, split_eq⟩ := lines_append one (trimEnd (" " ++ contract))
    refine ⟨behind, others, ?_⟩
    simpa only [String.append_assoc, String.append_empty] using split_eq
  have apart : ∀ line ∈ ["// <auto-generated/>", "#nullable disable", "", "\x7b"],
      (lines line).findSome? (between (indentation 1 ++ "public sealed class ") "") = none := by
    decide +kernel
  -- The namespace is not indented.
  have opening : (lines ("namespace " ++ scope)).findSome?
      (between (indentation 1 ++ "public sealed class ") "") = none := by
    rw [lines_oneLine (oneLine_append.mpr ⟨by decide, scopeWord.oneLine⟩),
      List.findSome?_singleton, Option.eq_none_iff_forall_ne_some]
    intro inner found
    have line := congrArg String.toList (between_eq_some_iff.mp found)
    simp [indentation] at line
  unfold className? Artifact.declared Artifact.heading
  simp only [List.cons_append, List.nil_append, lines_ofLines_cons, header,
    List.findSome?_append, List.findSome?_cons, apart, List.mem_cons, true_or, or_true, opening,
    between_append, Option.none_or, Option.map_some]
  rw [Outline.takeWhile_title titleWord]

theorem Artifact.className?_ofScope {scope title : String} (scopeWord : Text.Unbroken scope)
    (titleWord : Text.Unbroken title) (name contract : String) (members : Script) :
    Text.className? (ofScope name scope (Script.block ("public sealed class " ++ title ++ " : " ++
      contract) members)).text = some title := by
  obtain ⟨rest, opens⟩ := text_ofScope scopeWord title contract name members
  rw [opens, Text.className?_declared scopeWord titleWord]

/-! ### Names of classes -/

theorem Naming.className_eq {settings : Settings} {plans : List ProxyPlan} {identity : Identity}
    (member : identity ∈ identities settings plans) : identity.className = settings.proxyClass := by
  obtain ⟨_, _, rfl⟩ := List.mem_map.mp member
  rfl

/-- A proxy's class is declared, and constructed, under one identifier, which stands behind the last
dot of the class's full name. -/
structure Proxy.Declares (settings : Settings) (plan : ProxyPlan) (identity : Identity)
    (title : String) : Prop where
  declared : Text.className? (Proxy.artifact settings plan identity).text = some title
  constructed : ∃ rest, (Proxy.artifact settings plan identity).text =
    Text.ofLines (ProxyClass.ofPlan settings plan { identity with className := title }).opening ++
      rest
  single : Text.Single title
  named : Text.splitAtLastDot identity.fullName = some ("global::" ++ identity.scope, title)

/-- All classes that are written for some plans are declared by one identifier. -/
structure SingleClasses (settings : Settings) (plans : List ProxyPlan) : Prop where
  proxies : ∀ proxy ∈ plans.zip (Naming.identities settings plans),
    ∃ title, Proxy.Declares settings proxy.1 proxy.2 title
  dispatcher : ∃ title, Text.className? (Dispatcher.artifact settings
    (plans.zip (Naming.identities settings plans))).text = some title ∧ Text.Single title

section

variable {settings : Settings} (accepted : settings.check = .ok ())

include accepted

theorem Proxy.className?_artifact {plans : List ProxyPlan} {identity : Identity}
    (member : identity ∈ Naming.identities settings plans) (plan : ProxyPlan) :
    Text.className? (artifact settings plan identity).text = some identity.className := by
  obtain ⟨scopeWord, titleWord⟩ := Naming.unbroken_identity accepted member
  exact Artifact.className?_ofScope scopeWord titleWord identity.artifact plan.contract.fullName _

theorem Dispatcher.className?_artifact (proxies : List (ProxyPlan × Identity)) :
    Text.className? (artifact settings proxies).text = some settings.dispatcherClass := by
  have dotted := Settings.unbroken_of_check accepted
  have scopeWord := dotted ("dispatcher_namespace", settings.dispatcherNamespace)
    (by simp [Settings.dottedFields])
  have titleWord := dotted ("dispatcher_class_name", settings.dispatcherClass)
    (by simp [Settings.dottedFields])
  exact Artifact.className?_ofScope scopeWord titleWord settings.dispatcherArtifact
    settings.dispatcherContract _

theorem Proxy.declares_iff {plans : List ProxyPlan} {plan : ProxyPlan} {identity : Identity}
    (member : identity ∈ Naming.identities settings plans) :
    (∃ title, Declares settings plan identity title) ↔ '.' ∉ settings.proxyClass.toList := by
  have declared := className?_artifact accepted member plan
  have scopeWord := (Naming.unbroken_identity accepted member).1
  have dotted := Settings.dotted_of_check accepted ("proxy_class_name", settings.proxyClass)
    (by simp [Settings.dottedFields])
  rw [← Naming.className_eq member] at dotted ⊢
  constructor
  · rintro ⟨title, declares⟩
    obtain rfl := Option.some.inj (declared.symm.trans declares.declared)
    exact declares.single.2
  · intro absent
    exact ⟨identity.className, {
      declared := declared
      constructed := ProxyClass.text_ofScope (List.cons_ne_nil _ _) scopeWord identity.artifact
      single := ⟨dotted, absent⟩
      named := Text.splitAtLastDot_eq_some_iff.mpr ⟨rfl, absent⟩ }⟩

/-- With settings that pass the check, all classes are declared by one identifier exactly where no
dot stands in the dispatcher's name and, if there are plans, in that of the proxies. -/
theorem singleClasses_iff (plans : List ProxyPlan) : SingleClasses settings plans ↔
    (plans ≠ [] → '.' ∉ settings.proxyClass.toList) ∧ '.' ∉ settings.dispatcherClass.toList := by
  have dotted := Settings.dotted_of_check accepted
    ("dispatcher_class_name", settings.dispatcherClass) (by simp [Settings.dottedFields])
  have read := Dispatcher.className?_artifact accepted
    (plans.zip (Naming.identities settings plans))
  constructor
  · rintro ⟨proxies, title, found, single⟩
    obtain rfl := Option.some.inj (read.symm.trans found)
    refine ⟨fun planned => ?_, single.2⟩
    obtain ⟨plan, others, rfl⟩ := List.exists_cons_of_ne_nil planned
    obtain ⟨identity, named, paired⟩ : ∃ identity ∈ Naming.identities settings (plan :: others),
        (plan, identity) ∈ (plan :: others).zip (Naming.identities settings (plan :: others)) :=
      ⟨_, List.mem_cons_self, List.mem_cons_self⟩
    exact (Proxy.declares_iff accepted named).mp (proxies _ paired)
  · rintro ⟨absent, single⟩
    refine ⟨?_, _, read, dotted, single⟩
    rintro ⟨plan, identity⟩ member
    obtain ⟨planned, named⟩ := List.of_mem_zip member
    exact (Proxy.declares_iff accepted named).mpr (absent (List.ne_nil_of_mem planned))

end

/-- The check takes a dotted name for a class of either kind. -/
theorem singleClasses_plansOf :
    (({} : Settings).check = .ok () ∧ SingleClasses {} (Naming.plansOf ["Logging"])) ∧
    (({ proxyClass := "Acme.Proxy" } : Settings).check = .ok () ∧
      ¬ SingleClasses { proxyClass := "Acme.Proxy" } (Naming.plansOf ["Logging"])) ∧
    (({ dispatcherClass := "Acme.Dispatcher" } : Settings).check = .ok () ∧
      ¬ SingleClasses { dispatcherClass := "Acme.Dispatcher" } []) := by
  have proxy : ({ proxyClass := "Acme.Proxy" } : Settings).check = .ok () := by decide +kernel
  have dispatcher : ({ dispatcherClass := "Acme.Dispatcher" } : Settings).check = .ok () := by
    decide +kernel
  refine ⟨⟨Settings.check_default, ?_⟩, ⟨proxy, ?_⟩, dispatcher, ?_⟩
  · rw [singleClasses_iff Settings.check_default]
    decide
  · rw [singleClasses_iff proxy]
    decide
  · rw [singleClasses_iff dispatcher]
    decide

end Interpose
