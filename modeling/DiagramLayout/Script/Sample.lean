import DiagramLayout.Diagram.Kind

/-!
# Samples

A short script for every kind of diagram, which is detected as that kind and read without
complaints.
-/

namespace DiagramLayout.DiagramKind

/-- The lines of the sample of a kind. -/
def sampleLines : DiagramKind → List String
  | useCase =>
    ["کاربر -> (ورود به سیستم)",
      "Admin -> (ManageUsers)",
      "Admin -> (GenerateReport)"]
  | sequence =>
    ["Alice -> Bob: Hello",
      "activate Bob",
      "Bob --> Alice: Ack",
      "deactivate Bob",
      "Alice -> Bob: Follow up"]
  | classes =>
    ["class User \x7b",
      "+name: string",
      "+login(password: string): boolean",
      "\x7d",
      "",
      "class Admin \x7b",
      "+permissions: string[]",
      "+ban(userId: number): void",
      "\x7d",
      "",
      "User <|-- Admin",
      "User *-- Profile"]
  | state =>
    ["[*] -> [Idle]",
      "[Idle] -> [Active]: start",
      "[Active] -> [Paused]: hold",
      "[Paused] -> [Active]: resume",
      "[Active] -> [*]: done"]

/-- The sample of a kind. -/
def sample (kind : DiagramKind) : String :=
  "\n".intercalate kind.sampleLines

end DiagramLayout.DiagramKind
