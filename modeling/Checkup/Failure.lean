/-!
# Failures

A rule's check or an analyzer may break down. What is known of it then is a kind and a message.
-/

namespace Checkup

structure Failure where
  kind : String
  message : String

def Failure.text (failure : Failure) : String := failure.kind ++ ": " ++ failure.message

end Checkup
