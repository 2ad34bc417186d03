import Foreach.Proofs.Work
import Foreach.Types.Registration

/-!
# What registration insists on and does

Registration adds types and members, copies to instances what their definitions have, and gives
types a base, interfaces and members. For each of these actions there is one statement of when it
ends, and of the registry that it ends with. All else that is said of them is read off these
statements.
-/
namespace Foreach.Registration

variable {before after : Registry} {type : TypeId} {depth : Nat}

/-- A question leaves the registry. -/
theorem ask_eq_ok {α : Type} {question : Registry → Checked α} {result : α} :
    ask question before = .ok (result, after) ↔ question before = .ok result ∧ before = after :=
  Work.ask_eq_ok

/-- The entry of a registered type is asked for. -/
theorem ask_entry_eq_ok {entry : TypeEntry} :
    ask (fun registry => registry.entry type) before = .ok (entry, after) ↔
      before.type? type = some entry ∧ before = after := by
  rw [ask_eq_ok, Registry.entry, Checked.ofOption_eq_ok]

/-- The entry of a registered member is asked for. -/
theorem ask_member_eq_ok {member : MemberId} {entry : MemberEntry} :
    ask (fun registry => registry.member member) before = .ok (entry, after) ↔
      before.member? member = some entry ∧ before = after := by
  rw [ask_eq_ok, Registry.member, Checked.ofOption_eq_ok]

/-- A type is added at the next position. -/
theorem addType_eq_ok {entry : TypeEntry} :
    addType entry before = .ok (type, after) ↔
      type = ⟨before.size⟩ ∧ after = (before.pushType entry).1 := by
  rw [addType, Work.modifyGet_eq_ok, Prod.mk.injEq]
  exact and_congr eq_comm eq_comm

/-- A member is added at the next position. -/
theorem addMember_eq_ok {entry : MemberEntry} {member : MemberId} :
    addMember entry before = .ok (member, after) ↔
      member = ⟨before.members.size⟩ ∧ after = (before.pushMember entry).1 := by
  rw [addMember, Work.modifyGet_eq_ok, Prod.mk.injEq]
  exact and_congr eq_comm eq_comm

/-- The entry of a registered type is changed. -/
theorem changeType_eq_ok {change : TypeEntry → TypeEntry} :
    changeType type change before = .ok ((), after) ↔
      ∃ entry, before.type? type = some entry ∧ before.modifyType type change = after := by
  simp only [changeType, Work.bind_eq_ok, ask_entry_eq_ok, Work.modify_eq_ok]
  constructor
  · rintro ⟨entry, _, ⟨known, rfl⟩, changed⟩
    exact ⟨entry, known, changed⟩
  · rintro ⟨entry, known, changed⟩
    exact ⟨entry, before, ⟨known, rfl⟩, changed⟩

section Copies

variable {replace : TypeId → Registration TypeId}

/-- The parameters of a method are replaced, and then what it answers with. -/
theorem copyMethod_eq_ok {parameters : List TypeId} {returns : TypeId} {result : MemberKind} :
    copyKind replace (.method parameters returns) before = .ok (result, after) ↔
      ∃ parameters' returns' middle, parameters.mapM replace before = .ok (parameters', middle) ∧
        replace returns middle = .ok (returns', after) ∧ result = .method parameters' returns' := by
  constructor
  · intro copied
    obtain ⟨parameters', middle, first, copied⟩ := Work.bind_eq_ok.mp copied
    obtain ⟨returns', _, answer, ended⟩ := Work.bind_eq_ok.mp copied
    obtain ⟨rfl, rfl⟩ := Work.pure_eq_ok.mp ended
    exact ⟨parameters', returns', middle, first, answer, rfl⟩
  · rintro ⟨parameters', returns', middle, first, answer, rfl⟩
    exact Work.bind_eq_ok.mpr ⟨parameters', middle, first,
      Work.bind_eq_ok.mpr ⟨returns', after, answer, rfl⟩⟩

/-- The type of a property is replaced. -/
theorem copyProperty_eq_ok {result : MemberKind} :
    copyKind replace (.property type) before = .ok (result, after) ↔
      ∃ type', replace type before = .ok (type', after) ∧ result = .property type' := by
  constructor
  · intro copied
    obtain ⟨type', _, answer, ended⟩ := Work.bind_eq_ok.mp copied
    obtain ⟨rfl, rfl⟩ := Work.pure_eq_ok.mp ended
    exact ⟨type', answer, rfl⟩
  · rintro ⟨type', answer, rfl⟩
    exact Work.bind_eq_ok.mpr ⟨type', after, answer, rfl⟩

/-- The counterpart of a member is the member itself if its owner is replaced by itself, and else
the one at the same place of what the owner is replaced by, if there is one. -/
theorem counterpart_eq_ok {member result : MemberId} :
    counterpart replace member before = .ok (result, after) ↔
      ∃ entry owner, before.member? member = some entry ∧
        replace entry.owner before = .ok (owner, after) ∧
        (owner = entry.owner ∧ result = member ∨
          owner ≠ entry.owner ∧ ∃ target source, after.type? owner = some target ∧
            after.type? (target.definition.getD owner) = some source ∧
            result = ((source.members.idxOf? (entry.definition.getD member)).bind
              fun place => target.members[place]?).getD member) := by
  constructor
  · intro asked
    obtain ⟨entry, _, entryAsked, asked⟩ := Work.bind_eq_ok.mp asked
    obtain ⟨owner, middle, replaced, decided⟩ := Work.bind_eq_ok.mp asked
    obtain ⟨known, rfl⟩ := ask_member_eq_ok.mp entryAsked
    by_cases stays : owner = entry.owner
    · rw [if_pos stays] at decided
      obtain ⟨rfl, rfl⟩ := Work.pure_eq_ok.mp decided
      exact ⟨entry, owner, known, replaced, .inl ⟨stays, rfl⟩⟩
    · rw [if_neg stays] at decided
      obtain ⟨target, _, targetAsked, decided⟩ := Work.bind_eq_ok.mp decided
      obtain ⟨source, _, sourceAsked, ended⟩ := Work.bind_eq_ok.mp decided
      obtain ⟨targetKnown, rfl⟩ := ask_entry_eq_ok.mp targetAsked
      obtain ⟨sourceKnown, rfl⟩ := ask_entry_eq_ok.mp sourceAsked
      obtain ⟨rfl, rfl⟩ := Work.pure_eq_ok.mp ended
      exact ⟨entry, owner, known, replaced,
        .inr ⟨stays, target, source, targetKnown, sourceKnown, rfl⟩⟩
  · rintro ⟨entry, owner, known, replaced, decided⟩
    refine Work.bind_eq_ok.mpr ⟨entry, before, ask_member_eq_ok.mpr ⟨known, rfl⟩, ?_⟩
    refine Work.bind_eq_ok.mpr ⟨owner, after, replaced, ?_⟩
    rcases decided with ⟨stays, rfl⟩ | ⟨stays, target, source, targetKnown, sourceKnown, rfl⟩
    · rw [if_pos stays]
      rfl
    · rw [if_neg stays]
      refine Work.bind_eq_ok.mpr ⟨target, after, ask_entry_eq_ok.mpr ⟨targetKnown, rfl⟩, ?_⟩
      exact Work.bind_eq_ok.mpr ⟨source, after, ask_entry_eq_ok.mpr ⟨sourceKnown, rfl⟩, rfl⟩

/-- A base is replaced, and the type gets what it is replaced by. -/
theorem copyBase_eq_ok {base : TypeId} :
    copyBase replace type base before = .ok ((), after) ↔
      ∃ base' middle entry, replace base before = .ok (base', middle) ∧
        middle.type? type = some entry ∧
        after = middle.modifyType type fun entry => { entry with base := some base' } := by
  constructor
  · intro copied
    obtain ⟨base', middle, replaced, changed⟩ := Work.bind_eq_ok.mp copied
    obtain ⟨entry, known, rfl⟩ := changeType_eq_ok.mp changed
    exact ⟨base', middle, entry, replaced, known, rfl⟩
  · rintro ⟨base', middle, entry, replaced, known, rfl⟩
    exact Work.bind_eq_ok.mpr ⟨base', middle, replaced, changeType_eq_ok.mpr ⟨entry, known, rfl⟩⟩

/-- An interface is replaced, and the type gets what it is replaced by, after its interfaces. -/
theorem copyInterface_eq_ok {interface : TypeId} :
    copyInterface replace type interface before = .ok ((), after) ↔
      ∃ interface' middle entry, replace interface before = .ok (interface', middle) ∧
        middle.type? type = some entry ∧
        after = middle.modifyType type
          fun entry => { entry with interfaces := entry.interfaces ++ [interface'] } := by
  constructor
  · intro copied
    obtain ⟨interface', middle, replaced, changed⟩ := Work.bind_eq_ok.mp copied
    obtain ⟨entry, known, rfl⟩ := changeType_eq_ok.mp changed
    exact ⟨interface', middle, entry, replaced, known, rfl⟩
  · rintro ⟨interface', middle, entry, replaced, known, rfl⟩
    exact Work.bind_eq_ok.mpr
      ⟨interface', middle, replaced, changeType_eq_ok.mpr ⟨entry, known, rfl⟩⟩

/-- The signature of a member and what it implements are replaced, and the type gets a new member
with both, after its members. -/
theorem copyMember_eq_ok {member : MemberId} :
    copyMember replace type member before = .ok ((), after) ↔
      ∃ source kind middle implements last entry, before.member? member = some source ∧
        copyKind replace source.kind before = .ok (kind, middle) ∧
        source.implements.mapM (counterpart replace) middle = .ok (implements, last) ∧
        last.type? type = some entry ∧
        after = (last.pushMember ⟨source.name, type, source.flags, kind, implements,
          some (source.definition.getD member)⟩).1.modifyType type
            fun entry => { entry with members := entry.members ++ [⟨last.members.size⟩] } := by
  constructor
  · intro copied
    obtain ⟨source, _, sourceAsked, copied⟩ := Work.bind_eq_ok.mp copied
    obtain ⟨kind, middle, kindCopied, copied⟩ := Work.bind_eq_ok.mp copied
    obtain ⟨implements, last, counterparts, copied⟩ := Work.bind_eq_ok.mp copied
    obtain ⟨copy, pushed, added, changed⟩ := Work.bind_eq_ok.mp copied
    obtain ⟨sourceKnown, rfl⟩ := ask_member_eq_ok.mp sourceAsked
    obtain ⟨rfl, rfl⟩ := addMember_eq_ok.mp added
    obtain ⟨entry, known, rfl⟩ := changeType_eq_ok.mp changed
    exact ⟨source, kind, middle, implements, last, entry, sourceKnown, kindCopied, counterparts,
      known, rfl⟩
  · rintro ⟨source, kind, middle, implements, last, entry, sourceKnown, kindCopied, counterparts,
      known, rfl⟩
    refine Work.bind_eq_ok.mpr ⟨source, before, ask_member_eq_ok.mpr ⟨sourceKnown, rfl⟩, ?_⟩
    refine Work.bind_eq_ok.mpr ⟨kind, middle, kindCopied, ?_⟩
    refine Work.bind_eq_ok.mpr ⟨implements, last, counterparts, ?_⟩
    refine Work.bind_eq_ok.mpr ⟨_, _, addMember_eq_ok.mpr ⟨rfl, rfl⟩, ?_⟩
    exact changeType_eq_ok.mpr ⟨entry, known, rfl⟩

end Copies

section Instances

variable {definition : TypeId}
  {action : (TypeId → Registration TypeId) → TypeId → Registration Unit}

/-- What is done for each instance of a definition is done for one after the other, each under the
substitution of the instance: what holds of all of them at first and is kept as there are fewer,
holds at the end. -/
theorem forInstances_induct (holds : List TypeId → Registry → Prop)
    (step : ∀ {made rest here there substitution}, holds (made :: rest) here →
      here.substitution made = .ok substitution →
        action (substitute depth substitution) made here = .ok ((), there) → holds rest there)
    (start : holds (before.instancesOf definition) before)
    (ran : forInstances depth definition action before = .ok ((), after)) : holds [] after := by
  obtain ⟨registry, _, got, each⟩ := Work.bind_eq_ok.mp ran
  obtain ⟨rfl, rfl⟩ := Work.get_eq_ok.mp got
  refine Work.forM_induct holds (fun made rest here there held acted => ?_) start each
  obtain ⟨substitution, _, asked, acted⟩ := Work.bind_eq_ok.mp acted
  obtain ⟨answer, rfl⟩ := ask_eq_ok.mp asked
  exact step held answer acted

end Instances

/-- A base is set on the type, and then copied to each of its instances. -/
theorem setBase_eq_ok {base : TypeId} :
    setBase depth type base before = .ok ((), after) ↔
      ∃ entry, before.type? type = some entry ∧
        forInstances depth type (fun replace made => copyBase replace made base)
          (before.modifyType type fun entry => { entry with base := some base }) =
            .ok ((), after) := by
  constructor
  · intro ran
    obtain ⟨⟨⟩, _, changed, propagated⟩ := Work.bind_eq_ok.mp ran
    obtain ⟨entry, known, rfl⟩ := changeType_eq_ok.mp changed
    exact ⟨entry, known, propagated⟩
  · rintro ⟨entry, known, propagated⟩
    exact Work.bind_eq_ok.mpr ⟨(), _, changeType_eq_ok.mpr ⟨entry, known, rfl⟩, propagated⟩

/-- What is registered as an interface is added to the type, and then copied to each of its
instances. -/
theorem addInterface_eq_ok {interface : TypeId} :
    addInterface depth type interface before = .ok ((), after) ↔
      (∃ contract, before.type? interface = some contract ∧ contract.flags.isInterface = true) ∧
        ∃ entry, before.type? type = some entry ∧
          forInstances depth type (fun replace made => copyInterface replace made interface)
            (before.modifyType type
              fun entry => { entry with interfaces := entry.interfaces ++ [interface] }) =
              .ok ((), after) := by
  constructor
  · intro ran
    obtain ⟨isInterface, _, asked, ran⟩ := Work.bind_eq_ok.mp ran
    obtain ⟨⟨⟩, _, required, ran⟩ := Work.bind_eq_ok.mp ran
    obtain ⟨⟨⟩, _, changed, propagated⟩ := Work.bind_eq_ok.mp ran
    obtain ⟨answer, rfl⟩ := ask_eq_ok.mp asked
    obtain ⟨holds, rfl⟩ := Work.lift_eq_ok.mp required
    obtain ⟨entry, known, rfl⟩ := changeType_eq_ok.mp changed
    obtain ⟨contract, contractKnown, isAnswer⟩ := Work.checked_bind_eq_ok.mp answer
    have flagged : contract.flags.isInterface = isInterface := Except.ok.inj isAnswer
    exact ⟨⟨contract, Checked.ofOption_eq_ok.mp contractKnown,
      flagged.trans (Checked.require_eq_ok.mp holds)⟩, entry, known, propagated⟩
  · rintro ⟨⟨contract, contractKnown, flagged⟩, entry, known, propagated⟩
    have answer : before.isInterface interface = .ok true :=
      Work.checked_bind_eq_ok.mpr
        ⟨contract, Checked.ofOption_eq_ok.mpr contractKnown, congrArg Except.ok flagged⟩
    refine Work.bind_eq_ok.mpr ⟨true, before, ask_eq_ok.mpr ⟨answer, rfl⟩, ?_⟩
    refine (Work.lift_bind_of_ok rfl).trans ?_
    exact Work.bind_eq_ok.mpr ⟨(), _, changeType_eq_ok.mpr ⟨entry, known, rfl⟩, propagated⟩

/-- A new member is added to the type, and then copied to each of its instances. -/
theorem addDeclaredMember_eq_ok {declaration : MemberDeclaration} {member : MemberId} :
    addDeclaredMember depth type declaration before = .ok (member, after) ↔
      member = ⟨before.members.size⟩ ∧ ∃ entry, before.type? type = some entry ∧
        forInstances depth type (fun replace made => copyMember replace made member)
          ((before.pushMember ⟨declaration.name, type, declaration.flags, declaration.kind,
            declaration.implements, none⟩).1.modifyType type
              fun entry => { entry with members := entry.members ++ [member] }) =
            .ok ((), after) := by
  constructor
  · intro ran
    obtain ⟨_, _, added, ran⟩ := Work.bind_eq_ok.mp ran
    obtain ⟨⟨⟩, _, changed, ran⟩ := Work.bind_eq_ok.mp ran
    obtain ⟨⟨⟩, _, propagated, ended⟩ := Work.bind_eq_ok.mp ran
    obtain ⟨rfl, rfl⟩ := addMember_eq_ok.mp added
    obtain ⟨entry, known, rfl⟩ := changeType_eq_ok.mp changed
    obtain ⟨rfl, rfl⟩ := Work.pure_eq_ok.mp ended
    exact ⟨rfl, entry, known, propagated⟩
  · rintro ⟨rfl, entry, known, propagated⟩
    refine Work.bind_eq_ok.mpr ⟨_, _, addMember_eq_ok.mpr ⟨rfl, rfl⟩, ?_⟩
    refine Work.bind_eq_ok.mpr ⟨(), _, changeType_eq_ok.mpr ⟨entry, known, rfl⟩, ?_⟩
    exact Work.bind_eq_ok.mpr ⟨(), after, propagated, rfl⟩

/-- A generic parameter is added as a type, and listed on its definition. -/
theorem addParameter_eq_ok {owner : TypeId} {position : Nat} {name : String} :
    addParameter owner position name before = .ok ((), after) ↔
      ∃ entry, (before.pushType (parameterEntry owner position name)).1.type? owner =
          some entry ∧
        after = (before.pushType (parameterEntry owner position name)).1.modifyType owner
          fun entry => { entry with parameters := entry.parameters ++ [⟨before.size⟩] } := by
  constructor
  · intro ran
    obtain ⟨parameter, _, added, changed⟩ := Work.bind_eq_ok.mp ran
    obtain ⟨rfl, rfl⟩ := addType_eq_ok.mp added
    obtain ⟨entry, known, rfl⟩ := changeType_eq_ok.mp changed
    exact ⟨entry, known, rfl⟩
  · rintro ⟨entry, known, rfl⟩
    refine Work.bind_eq_ok.mpr ⟨_, _, addType_eq_ok.mpr ⟨rfl, rfl⟩, ?_⟩
    exact changeType_eq_ok.mpr ⟨entry, known, rfl⟩

/-- A type is declared at the next position, and gets its generic parameters one after the
other. -/
theorem declare_eq_ok {declaration : TypeDeclaration} :
    declare declaration before = .ok (type, after) ↔
      type = ⟨before.size⟩ ∧
        (declaration.parameters.zipIdx.forM fun parameter =>
          addParameter type parameter.2 parameter.1) (before.pushType
            { name := declaration.name, space := declaration.space, kind := declaration.sort.kind,
              flags := declaration.flags, base := declaration.sort.base,
              outer := declaration.outer }).1 = .ok ((), after) := by
  constructor
  · intro ran
    obtain ⟨_, _, added, ran⟩ := Work.bind_eq_ok.mp ran
    obtain ⟨⟨⟩, _, parameters, ended⟩ := Work.bind_eq_ok.mp ran
    obtain ⟨rfl, rfl⟩ := addType_eq_ok.mp added
    obtain ⟨rfl, rfl⟩ := Work.pure_eq_ok.mp ended
    exact ⟨rfl, parameters⟩
  · rintro ⟨rfl, parameters⟩
    refine Work.bind_eq_ok.mpr ⟨_, _, addType_eq_ok.mpr ⟨rfl, rfl⟩, ?_⟩
    exact Work.bind_eq_ok.mpr ⟨(), after, parameters, rfl⟩

end Foreach.Registration
