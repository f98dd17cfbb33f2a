import PubSub.Properties.Framing
import PubSub.Server.Handlers

/-!
# The shutdown notice

The server sends a bare `tcp_request_t`, which begins with the id text `SERVER`. The
subscriber takes the first four bytes of whatever comes next for a length, and `SERV`
is not the length of a control message.
-/
namespace PubSub.Properties

open General

/-- Behind the frames of these datagrams, on an open connection, the subscriber reads the
notice as a control message and stops. -/
def Understood (rt : RealText) (ds : List Datagram) : Prop :=
  ∃ n, viewOf ((Subscriber.start (.whole (stream ds ++ shutdownNotice) false)).rounds rt n) =
    ⟨[], false, ds.map Datagram.body, .stopped⟩

/-- `SERV`, read as a length. -/
theorem prefixValue_notice : View.prefixValue shutdownNotice = 1448232275 := by decide

/-- The notice is taken for the beginning of a message of over a gigabyte. -/
theorem round_notice (parsed : List Bytes) :
    View.round View.exact ⟨shutdownNotice, false, parsed, .running⟩ =
      ⟨[], false, parsed, .waiting⟩ := by
  have size : shutdownNotice.length = 68 := by decide
  have nonempty : shutdownNotice ≠ [] := by decide
  have data : View.exact shutdownNotice = false := by
    rw [View.exact, prefixValue_notice]
    rfl
  rw [View.round, if_pos rfl, View.message, if_neg nonempty, data, if_neg Bool.false_ne_true,
    View.data, if_pos (by dsimp only; omega)]
  dsimp only
  -- 64 bytes are left, and nobody will send the others.
  rw [prefixValue_notice, View.text, if_neg (by omega), if_neg (by dsimp only; simp [size])]
  rfl

theorem rounds_notice (ds : List Datagram) (plain : ∀ d ∈ ds, d.payload.length ≠ 62) :
    View.rounds View.exact (ds.length + 1) ⟨stream ds ++ shutdownNotice, false, [], .running⟩ =
      ⟨[], false, ds.map Datagram.body, .waiting⟩ := by
  rw [View.rounds_add, rounds_stream ds shutdownNotice false [] plain]
  exact round_notice _

theorem not_understood (rt : RealText) (ds : List Datagram)
    (plain : ∀ d ∈ ds, d.payload.length ≠ 62) : ¬ Understood rt ds := by
  rintro ⟨n, stopped⟩
  have waits := rounds_notice ds plain
  rw [rounds_whole] at stopped
  -- The loop leaves `running` only once, and it does so to wait.
  have same := View.rounds_final View.exact n (ds.length + 1)
    ⟨stream ds ++ shutdownNotice, false, [], .running⟩ (by rw [stopped]; simp) (by rw [waits]; simp)
  rw [stopped, waits] at same
  simp at same

/-- The notice is never understood: with all bodies handed over, the subscriber waits for
the rest of a message that does not exist. -/
theorem notice_not_understood (rt : RealText) (ds : List Datagram)
    (plain : ∀ d ∈ ds, d.payload.length ≠ 62) :
    ¬ Understood rt ds ∧
      ∃ n, viewOf ((Subscriber.start (.whole (stream ds ++ shutdownNotice) false)).rounds rt n) =
        ⟨[], false, ds.map Datagram.body, .waiting⟩ :=
  ⟨not_understood rt ds plain, ds.length + 1, by rw [rounds_whole, rounds_notice ds plain]⟩

/-- A topic without a type, and a full topic with a short string. -/
def twoDatagrams : List Datagram :=
  [⟨default, ascii "news", by decide⟩, ⟨default, List.replicate 50 97 ++ [3, 120], by decide⟩]

theorem notice_not_understood_behind_two : ¬ Understood ⟨fun _ => [], fun _ _ _ => []⟩ twoDatagrams ∧
    ∃ n, viewOf ((Subscriber.start (.whole (stream twoDatagrams ++ shutdownNotice) false)).rounds
        ⟨fun _ => [], fun _ _ _ => []⟩ n) =
      ⟨[], false, twoDatagrams.map Datagram.body, .waiting⟩ :=
  notice_not_understood ⟨fun _ => [], fun _ _ _ => []⟩ twoDatagrams (by decide)

/-- Not even when nothing has been sent in front of it. -/
theorem notice_alone : ¬ ∃ rt, Understood rt [] := by
  rintro ⟨rt, understood⟩
  exact not_understood rt [] (by simp) understood

end PubSub.Properties
