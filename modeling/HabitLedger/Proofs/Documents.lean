import HabitLedger.Proofs.Containers
import HabitLedger.Settings
import HabitLedger.Standing

/-!
Stored documents without doubles: settings, streaks, badges and what is stored with a profile. Each
is given back exactly by either of its texts, so no two of a kind have a text in common.
-/

namespace HabitLedger

namespace Json

theorem decode_text {α : Type} (reader : Nat → Reader α) (value : Value) (a : α)
    (restores : (reader deepest).Restores value a) (layout : Layout) :
    decode reader (String.ofList (value.laid layout 0)) = .ok a := by
  have read := restores layout 0 [] [] (fun _ none => nomatch none) (fun _ none => nomatch none)
  rw [List.nil_append, List.append_nil] at read
  simp [decode, String.toList_ofList, read, bind, Except.bind, skipGap]

/-- What every layout of a value gives back, its compact and its pretty text give back. -/
theorem decode_both {α : Type} (reader : Nat → Reader α) (value : Value) (a : α)
    (restores : (reader deepest).Restores value a) :
    decode reader value.toCompact = .ok a ∧ decode reader value.toPretty = .ok a := by
  have compact := decode_text reader value a restores .compact
  have pretty := decode_text reader value a restores .pretty
  rw [Value.laid_compact] at compact
  rw [Value.laid_pretty] at pretty
  exact ⟨compact, pretty⟩

def ReadsBack {α : Type} (reader : Nat → Reader α) (write : α → Value) : Prop :=
  ∀ a, decode reader (write a).toCompact = .ok a ∧ decode reader (write a).toPretty = .ok a

def TellsApart {α : Type} (write : α → Value) : Prop :=
  Function.Injective (fun a => (write a).toCompact) ∧
    Function.Injective (fun a => (write a).toPretty)

theorem injective_of_decode {α : Type} (reader : Nat → Reader α) (text : α → String)
    (readsBack : ∀ a, decode reader (text a) = .ok a) : Function.Injective text := by
  intro a b same
  have read := readsBack a
  rw [same, readsBack b] at read
  exact (Except.ok.inj read).symm

theorem tellsApart {α : Type} (reader : Nat → Reader α) (write : α → Value)
    (readsBack : ReadsBack reader write) : TellsApart write :=
  ⟨injective_of_decode reader _ fun a => (readsBack a).1,
    injective_of_decode reader _ fun a => (readsBack a).2⟩

end Json

open Json

theorem Settings.restores (settings : Settings) (room : Nat) :
    (record.reader (room + 1)).Restores settings.toValue settings := by
  obtain ⟨dayBoundary, intakeMode, logFilter, pretty⟩ := settings
  refine record.restores room (dayBoundary, intakeMode, logFilter, pretty, ()) _ (by decide) ?_
  refine .kept (Reader.restores_variant _ _ _ _ ?_) (.kept (Reader.restores_variant _ _ _ _ ?_)
    (.kept (Reader.restores_text _ _) (.kept (Reader.restores_boolean _) .done)))
  · cases dayBoundary <;> rfl
  · cases intakeMode <;> rfl

theorem restores_lastDay (lastDay : Option Date) :
    Reader.date.optional.Restores (Value.optional (fun day => .text day.text) lastDay) lastDay :=
  Reader.restores_optional _ _ _ (fun _ => nofun) Reader.restores_date

theorem Streak.restores (streak : Streak) (room : Nat) :
    (record.reader (room + 1)).Restores streak.toValue streak := by
  obtain ⟨current, longest, lastDay⟩ := streak
  refine record.restores room (current, longest, lastDay, ()) _ (by decide) ?_
  exact .kept (Reader.restores_word32 _) (.kept (Reader.restores_word32 _)
    (.kept (restores_lastDay _) .done))

theorem EarnedList.restores (list : EarnedList) (room : Nat) :
    (reader (room + 1)).Restores list.toValue list := by
  refine Reader.restores_check _ _ _ list.names list ?_ rfl
  exact Reader.restores_list _ _ room list.names fun name _ => Reader.restores_text _ name

theorem ProfileUpdate.restores (update : ProfileUpdate) (room : Nat) :
    (record.reader (room + 2)).Restores update.toValue update := by
  obtain ⟨badges, currentStreak, longestStreak, lastDay⟩ := update
  refine record.restores (room + 1) (badges, currentStreak, longestStreak, lastDay, ()) _
    (by decide) ?_
  exact .kept (EarnedList.restores badges room) (.kept (Reader.restores_word32 _)
    (.kept (Reader.restores_word32 _) (.kept (restores_lastDay _) .done)))

theorem BoardEntry.restores (entry : BoardEntry) (room : Nat) :
    (record.reader (room + 1)).Restores entry.toValue entry := by
  obtain ⟨badge, name, description, icon, earned⟩ := entry
  refine record.restores room (badge, name, description, icon, earned, ()) _ (by decide) ?_
  refine .kept (Reader.restores_variant _ _ _ _ ?_) (.kept (Reader.restores_text _ _)
    (.kept (Reader.restores_text _ _) (.kept (Reader.restores_text _ _)
      (.kept (Reader.restores_boolean _) .done))))
  cases badge <;> rfl

theorem Board.restores (board : Board) (room : Nat) :
    (record.reader (room + 3)).Restores board.toValue board := by
  obtain ⟨entries⟩ := board
  refine record.restores (room + 2) (entries, ()) _ (by decide) ?_
  refine .kept (Reader.restores_list _ _ (room + 1) entries ?_) .done
  exact fun entry _ => BoardEntry.restores entry room

/-- Settings, streaks, profile updates, earned names, board entries and boards are all given back by
both of their texts, and no two of a kind have a text in common. -/
theorem documents_read_back :
    (ReadsBack Settings.record.reader Settings.toValue ∧ TellsApart Settings.toValue) ∧
    (ReadsBack Streak.record.reader Streak.toValue ∧ TellsApart Streak.toValue) ∧
    (ReadsBack ProfileUpdate.record.reader ProfileUpdate.toValue ∧
      TellsApart ProfileUpdate.toValue) ∧
    (ReadsBack EarnedList.reader EarnedList.toValue ∧ TellsApart EarnedList.toValue) ∧
    (ReadsBack BoardEntry.record.reader BoardEntry.toValue ∧ TellsApart BoardEntry.toValue) ∧
    (ReadsBack Board.record.reader Board.toValue ∧ TellsApart Board.toValue) := by
  have both {α : Type} (reader : Nat → Reader α) (write : α → Value)
      (restores : ∀ a, (reader deepest).Restores (write a) a) :
      ReadsBack reader write ∧ TellsApart write := by
    have readsBack : ReadsBack reader write := fun a => decode_both reader _ a (restores a)
    exact ⟨readsBack, tellsApart reader write readsBack⟩
  refine ⟨both _ _ ?_, both _ _ ?_, both _ _ ?_, both _ _ ?_, both _ _ ?_, both _ _ ?_⟩
  · exact fun settings => settings.restores 126
  · exact fun streak => streak.restores 126
  · exact fun update => update.restores 125
  · exact fun list => list.restores 126
  · exact fun entry => entry.restores 126
  · exact fun board => board.restores 124

end HabitLedger
